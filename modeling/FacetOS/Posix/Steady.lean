import FacetOS.Posix.Calls
import FacetOS.Process.Launched

/-!
# What calls leave alone

Whatever a process asks of its view, the names it can resolve, its store and the
root of its view stay the same, and the credential stores only gain nodes.
-/

namespace FacetOS.Posix

open Process FileView Attempts
open Config (FacetConfigUser)
open Rpc (FacetError)

variable {Handle : Type}

/-- A view without what its calls may change. -/
def PosixView.fixed (view : PosixView) : PosixView :=
  { view with
    cwdHandle := view.rootHandle
    cwdSyntheticEtc := false
    admin := false
    descriptors := [] }

/-- The parts of an environment that are settled when its process starts. -/
structure Keeps (before after : ProcessEnvironment Handle) : Prop where
  names : boundNames after.bindings = boundNames before.bindings
  native : after.nativeCapabilities = before.nativeCapabilities
  root : after.posixNamespaceRoot = before.posixNamespaceRoot
  files : after.credentialFiles = before.credentialFiles
  view : after.posixView.map PosixView.fixed = before.posixView.map PosixView.fixed

theorem Keeps.refl (environment : ProcessEnvironment Handle) : Keeps environment environment :=
  ⟨rfl, rfl, rfl, rfl, rfl⟩

theorem Keeps.trans {first second third : ProcessEnvironment Handle} (hleft : Keeps first second)
    (hright : Keeps second third) : Keeps first third where
  names := hright.names.trans hleft.names
  native := hright.native.trans hleft.native
  root := hright.root.trans hleft.root
  files := hright.files.trans hleft.files
  view := hright.view.trans hleft.view

theorem keeps_setCwd {environment changed : ProcessEnvironment Handle}
    {directory : DirectoryHandle} (hset : setCwd environment directory = .ok changed) :
    Keeps environment changed := by
  obtain rfl := setCwd_eq_ok hset
  exact ⟨boundNames_rebindCwd _ _, rfl, rfl, rfl, rfl⟩

theorem keeps_syncPosixCwd {environment changed : ProcessEnvironment Handle}
    {directory : DirectoryHandle} {syntheticEtc : Bool}
    (hsync : syncPosixCwd environment directory syntheticEtc = some changed) :
    Keeps environment changed := by
  unfold syncPosixCwd at hsync
  split at hsync
  · rw [← Option.some.inj hsync]
    exact ⟨rfl, rfl, rfl, rfl, rfl⟩
  · split at hsync
    · contradiction
    · rename_i middle hset
      rw [← Option.some.inj hsync]
      exact (keeps_setCwd hset).trans ⟨rfl, rfl, rfl, rfl, rfl⟩

variable (users : List FacetConfigUser)

theorem keeps_setCredentials
    (environment : ProcessEnvironment Handle) (uid gid : UInt32) (setUid setGid : Bool) :
    Keeps environment
        (dominit0ProcessEnvironmentSetCredentials users environment uid gid setUid setGid).2
      ∧ (dominit0ProcessEnvironmentSetCredentials users environment uid gid
        setUid setGid).2.posixView
        = environment.posixView := by
  unfold dominit0ProcessEnvironmentSetCredentials
  split
  · exact ⟨Keeps.refl environment, rfl⟩
  · dsimp only
    split <;> exact ⟨⟨rfl, rfl, rfl, rfl, rfl⟩, rfl⟩

theorem keeps_posixSetCredentials (environment : ProcessEnvironment Handle) (uid gid : UInt32) :
    Keeps environment (posixSetCredentials users environment uid gid).2 := by
  unfold posixSetCredentials
  cases hview : environment.posixView with
  | none => exact Keeps.refl environment
  | some view =>
    dsimp only
    split
    · exact Keeps.refl environment
    obtain ⟨hkeeps, hsame⟩ := keeps_setCredentials users environment uid gid
      (uid != 0xffffffff) (gid != 0xffffffff)
    split
    · rename_i changed hchanged
      rw [hchanged] at hkeeps
      exact hkeeps
    · rename_i changed hchanged
      rw [hchanged] at hkeeps hsame
      split
      · refine hkeeps.trans ⟨rfl, rfl, rfl, rfl, ?_⟩
        rw [hsame, hview]
        rfl
      · exact hkeeps

/-! ## Calls -/

/-- What every call leaves alone. -/
structure Steady (before after : ViewState Handle) : Prop where
  environment : Keeps before.environment after.environment
  stores : Grows before.stores after.stores

instance : Std.Refl (@Steady Handle) where
  refl _ := ⟨Keeps.refl _, Std.Refl.refl _⟩

instance : IsTrans (ViewState Handle) Steady where
  trans _ _ _ hleft hright := ⟨hleft.environment.trans hright.environment,
    IsTrans.trans _ _ _ hleft.stores hright.stores⟩

@[simp]
theorem steady_openNode (base : NodeHandle) (path : List UInt8) (directory : Bool) :
    Moves (@Steady Handle) (openNode base path directory) := by
  have hopen : Moves (@Steady Handle) (zoom ViewState.stores
      (fun stores state => { state with stores }) (openNodeFrom base path directory)) :=
    (moves_openNodeFrom base path directory).zoom (fun _ _ hgrows => ⟨Keeps.refl _, hgrows⟩)
  refine hopen.bind (fun handle => ?_)
  exact Moves.bind (fun _ => ⟨Keeps.refl _, Std.Refl.refl _⟩) (fun _ => moves_pure _)

/-- A view may be changed in what is not fixed. -/
theorem steady_updateView {change : PosixView → PosixView}
    (hfixed : ∀ view, (change view).fixed = view.fixed) :
    Moves (@Steady Handle) (modify (updateView change) : Attempt _ PosixFailure Unit) := by
  intro state
  refine ⟨⟨rfl, rfl, rfl, rfl, ?_⟩, Std.Refl.refl _⟩
  change (state.environment.posixView.map change).map PosixView.fixed = _
  rw [Option.map_map]
  exact congrArg (Option.map · state.environment.posixView) (funext hfixed)

@[simp]
theorem steady_setDescriptor (fd : ℕ) (descriptor : Descriptor) :
    Moves (@Steady Handle) (modify (updateView (setDescriptor fd descriptor)) :
      Attempt _ PosixFailure Unit) :=
  steady_updateView (fun _ => rfl)

@[simp]
theorem steady_openResolved (resolved : PosixResolvedPath) (directory : Bool) :
    Moves (@Steady Handle) (openResolved resolved directory) :=
  steady_openNode _ _ _

@[simp]
theorem steady_currentView : Moves (@Steady Handle) currentView :=
  moves_query _

@[simp]
theorem steady_resolveIn (view : PosixView) (path : List UInt8) :
    Moves (@Steady Handle) (resolveIn view path) :=
  moves_query _

@[simp]
theorem steady_openEither (resolved : PosixResolvedPath) :
    Moves (@Steady Handle) (openEither resolved) := by
  intro state
  unfold openEither
  have hfirst := @steady_openResolved Handle resolved true
  split
  · rename_i later hrun
    have hrest : Moves (@Steady Handle) (do
        let handle ← openResolved resolved false
        return (handle, false) : Attempt (ViewState Handle) FacetError (NodeHandle × Bool)) :=
      (steady_openResolved _ _).bind (fun _ => moves_pure _)
    exact IsTrans.trans _ _ _ (hfirst.of_eq hrun) (hrest later)
  all_goals
    rename_i hrun
    exact hfirst.of_eq hrun

@[simp]
theorem steady_cwdChanged (directory : NodeHandle) (syntheticEtc : Bool) :
    Moves (@Steady Handle) (cwdChanged directory syntheticEtc) := by
  intro state
  unfold cwdChanged
  split
  · exact Std.Refl.refl state
  · rename_i environment hsync
    exact ⟨keeps_syncPosixCwd hsync, Std.Refl.refl _⟩

@[simp]
theorem steady_changeTo (view : PosixView) (directory : NodeHandle) :
    Moves (@Steady Handle) (changeTo view directory) := by
  refine Moves.bind (steady_updateView fun _ => rfl) (fun _ => ?_)
  split <;> simp

theorem steady_posixChangeDirectory (path : List UInt8) :
    Moves (@Steady Handle) (posixChangeDirectory path) := by
  refine (moves_query _).bind (fun view => ?_)
  split
  · refine Moves.bind (steady_updateView fun _ => rfl) (fun _ => ?_)
    split <;> simp
  · repeat' first | simp | refine Moves.bind ?_ fun _ => ?_ | split

theorem steady_changeCredentials (uid gid : UInt32) :
    Moves (@Steady Handle) (changeCredentials users uid gid) :=
  fun state => ⟨keeps_posixSetCredentials users state.environment uid gid, Std.Refl.refl _⟩

/-- No call changes what is settled when the process starts. -/
theorem steady_perform (call : PosixCall) : Moves (@Steady Handle) (call.perform users) := by
  cases call with
  | changeDirectory path => exact (steady_posixChangeDirectory path).bind (fun _ => moves_pure _)
  | setCredentials uid gid =>
    exact (steady_changeCredentials users uid gid).bind (fun _ => moves_pure _)
  -- the other calls are made of steps that were shown to be steady
  | _ => repeat' first | (simp; done) | refine Moves.bind ?_ fun _ => ?_ | split

end FacetOS.Posix
