import FacetOS.Posix.Seeking

/-!
# The table of descriptors

A view has 64 descriptors, of which the first three are the standard streams.  To a
process the table is a finite map from numbers to open files: opening adds the
lowest free number, closing removes one, reading and seeking move an offset, and
whatever fails leaves the map alone.
-/

namespace FacetOS.Posix

open Process FileView Attempts
open Config (FacetConfigUser)
open Rpc (FacetError)
open Passes (reject)
open Initrd (slash)

/-! ## The finite map -/

/-- The calls that look at the table. -/
inductive DescriptorCall
  | open (path : List UInt8) (flags : OpenFlags)
  | close (fd : Int32)
  | read (fd : Int32) (maximum : UInt32) (input : Except FacetError (List UInt8))
  | write (fd : Int32) (output : Except FacetError ℕ)
  | seek (fd : Int32) (offset : Int64) (whence : Whence)

def DescriptorCall.toCall : DescriptorCall → PosixCall
  | .open path flags => .open path flags
  | .close fd => .close fd
  | .read fd maximum input => .read fd maximum input
  | .write fd output => .write fd output
  | .seek fd offset whence => .seek fd offset whence

/-- The flags that `posix_open` lets through. -/
def OpenFlags.Permitted (flags : OpenFlags) : Prop :=
  flags.readOnly = true ∧ flags.create = false ∧ flags.truncate = false ∧ flags.append = false

/-- The descriptors in use. -/
def live (descriptors : List Descriptor) (fd : ℕ) : Option Descriptor :=
  descriptors[fd]?.filter (· ≠ .unused)

/-- A full-sized table whose first entries are the standard streams. -/
structure StandardTable (descriptors : List Descriptor) : Prop where
  length : descriptors.length = posixDescriptorCount
  streams : descriptors.take 3 = [.input, .output, .output]

/-- What a call may do to the map, given what it answers. -/
inductive TableStep : DescriptorCall → Except PosixFailure PosixReply →
    (ℕ → Option Descriptor) → (ℕ → Option Descriptor) → Prop
  | failed (call : DescriptorCall) (failure : PosixFailure) (table : ℕ → Option Descriptor) :
      TableStep call (.error failure) table table
  | opened (path : List UInt8) (flags : OpenFlags) (fd : ℕ) (descriptor : Descriptor)
      (table : ℕ → Option Descriptor) (hrange : 3 ≤ fd ∧ fd < posixDescriptorCount)
      (hfree : table fd = none) (hlowest : ∀ other, 3 ≤ other → other < fd → table other ≠ none) :
      TableStep (.open path flags) (.ok (.descriptor fd)) table
        (Function.update table fd (some descriptor))
  | closed (fd : Int32) (table : ℕ → Option Descriptor)
      (hrange : 3 ≤ fd.toNatClampNeg ∧ fd.toNatClampNeg < posixDescriptorCount)
      (hlive : table fd.toNatClampNeg ≠ none) :
      TableStep (.close fd) (.ok .done) table (Function.update table fd.toNatClampNeg none)
  | readAt (fd : Int32) (maximum : UInt32) (input : Except FacetError (List UInt8))
      (data : List UInt8) (descriptor : Descriptor) (position : UInt64)
      (table : ℕ → Option Descriptor) (hlive : table fd.toNatClampNeg = some descriptor) :
      TableStep (.read fd maximum input) (.ok (.data data)) table
        (Function.update table fd.toNatClampNeg (some (descriptor.movedTo position)))
  | written (fd : Int32) (output : Except FacetError ℕ) (count : ℕ)
      (table : ℕ → Option Descriptor) (hlive : table fd.toNatClampNeg ≠ none) :
      TableStep (.write fd output) (.ok (.written count)) table table
  | sought (fd : Int32) (offset : Int64) (whence : Whence) (descriptor : Descriptor)
      (position : UInt64) (table : ℕ → Option Descriptor)
      (hlive : table fd.toNatClampNeg = some descriptor) :
      TableStep (.seek fd offset whence) (.ok (.offset position)) table
        (Function.update table fd.toNatClampNeg (some (descriptor.movedTo position)))

variable {descriptor : Descriptor} {fd : ℕ}

/-! ## Lists and maps -/

section Lists

variable {descriptors : List Descriptor}

theorem live_eq_some :
    live descriptors fd = some descriptor
      ↔ descriptors[fd]? = some descriptor ∧ descriptor ≠ .unused := by
  simp [live, Option.filter_eq_some_iff]

theorem live_eq_none (hfd : fd < descriptors.length) :
    live descriptors fd = none ↔ descriptors[fd]? = some .unused := by
  rw [live, List.getElem?_eq_getElem hfd]
  by_cases hunused : descriptors[fd] = .unused
  · simp [hunused]
  · simp [Option.filter, hunused]

theorem live_set (hfd : fd < descriptors.length) (descriptor : Descriptor) :
    live (descriptors.set fd descriptor)
      = Function.update (live descriptors) fd ((some descriptor).filter (· ≠ .unused)) := by
  funext other
  by_cases hother : other = fd
  · subst hother
    rw [live, List.getElem?_set_self hfd, Function.update_self]
  · rw [live, List.getElem?_set_ne (Ne.symm hother), Function.update_of_ne hother, live]

theorem freeDescriptor_eq_some (hfree : freeDescriptor descriptors = some fd) :
    (3 ≤ fd ∧ fd < descriptors.length) ∧ live descriptors fd = none
      ∧ ∀ other, 3 ≤ other → other < fd → live descriptors other ≠ none := by
  obtain ⟨index, hindex, rfl⟩ := Option.map_eq_some_iff.mp hfree
  obtain ⟨hbound, hunused, hearlier⟩ := List.findIdx?_eq_some_iff_getElem.mp hindex
  rw [List.length_drop] at hbound
  have hrange : index + 3 < descriptors.length := by omega
  refine ⟨⟨Nat.le_add_left 3 index, hrange⟩, ?_, ?_⟩
  · rw [live_eq_none hrange, List.getElem?_eq_getElem hrange]
    simpa [Nat.add_comm] using hunused
  · intro other hleast hless
    rw [Ne, live_eq_none (hless.trans hrange), List.getElem?_eq_getElem (hless.trans hrange)]
    obtain ⟨distance, rfl⟩ := Nat.exists_eq_add_of_le hleast
    simpa using hearlier distance (by omega)

theorem freeDescriptor_eq_none :
    freeDescriptor descriptors = none
      ↔ ∀ fd, 3 ≤ fd → fd < descriptors.length → live descriptors fd ≠ none := by
  rw [freeDescriptor, Option.map_eq_none_iff, List.findIdx?_eq_none_iff]
  constructor
  · intro hall fd hleast hbound hnone
    rw [live_eq_none hbound] at hnone
    obtain ⟨distance, rfl⟩ := Nat.exists_eq_add_of_le hleast
    have hmem : Descriptor.unused ∈ descriptors.drop 3 := by
      refine List.mem_of_getElem? (?_ : (descriptors.drop 3)[distance]? = _)
      rw [List.getElem?_drop, hnone]
    simpa using hall _ hmem
  · intro hall descriptor hmem
    obtain ⟨distance, hdistance⟩ := List.mem_iff_getElem?.mp hmem
    rw [List.getElem?_drop] at hdistance
    obtain ⟨hbound, hget⟩ := List.getElem?_eq_some_iff.mp hdistance
    have hlive := hall (3 + distance) (Nat.le_add_right 3 distance) hbound
    rw [Ne, live_eq_none hbound, hdistance, Option.some.injEq] at hlive
    simpa using hlive

theorem StandardTable.set (htable : StandardTable descriptors) (hfd : 3 ≤ fd)
    (descriptor : Descriptor) : StandardTable (descriptors.set fd descriptor) where
  length := by rw [List.length_set, htable.length]
  streams := by rw [List.take_set_of_le hfd, htable.streams]

/-- The standard streams have no offset, so moving them changes nothing. -/
theorem StandardTable.move (htable : StandardTable descriptors)
    (hlive : live descriptors fd = some descriptor) (position : UInt64) :
    StandardTable (descriptors.set fd (descriptor.movedTo position)) := by
  by_cases hfd : 3 ≤ fd
  · exact htable.set hfd _
  obtain ⟨hget, -⟩ := live_eq_some.mp hlive
  have hstream : [Descriptor.input, .output, .output][fd]? = some descriptor := by
    rw [← htable.streams, List.getElem?_take_of_lt (not_le.mp hfd), hget]
  have hsame : descriptor.movedTo position = descriptor := by
    have hmem := List.mem_of_getElem? hstream
    simp only [List.mem_cons, List.not_mem_nil, or_false] at hmem
    obtain rfl | rfl | rfl := hmem
    all_goals rfl
  obtain ⟨hbound, rfl⟩ := List.getElem?_eq_some_iff.mp hget
  rw [hsame, List.set_getElem_self]
  exact htable

end Lists

/-! ## The calls -/

section Calls

variable {Handle : Type} {state : ViewState Handle} {view : PosixView}

theorem usedDescriptor_eq_ok {fd : Int32} (hused : usedDescriptor view fd = .ok descriptor) :
    fd.toNatClampNeg < posixDescriptorCount
      ∧ live view.descriptors fd.toNatClampNeg = some descriptor := by
  unfold usedDescriptor at hused
  split at hused
  · cases hused
  rename_i hrange
  split at hused
  · cases hused
  · cases hused
  · rename_i other hother hget
    obtain rfl := Except.ok.inj hused
    refine ⟨?_, live_eq_some.mpr ⟨hget, hother⟩⟩
    rw [← Int32.toNat_toInt]
    unfold posixDescriptorCount at hrange ⊢
    omega

theorem set_live_self {descriptors : List Descriptor}
    (hlive : live descriptors fd = some descriptor) :
    descriptors.set fd descriptor = descriptors := by
  obtain ⟨hget, -⟩ := live_eq_some.mp hlive
  obtain ⟨hbound, rfl⟩ := List.getElem?_eq_some_iff.mp hget
  exact List.set_getElem_self hbound

/-- Opening a node changes the stores only. -/
theorem environment_openNode (base : NodeHandle) (path : List UInt8) (directory : Bool)
    (state : ViewState Handle) :
    (openNode base path directory state).2.environment = state.environment := by
  refine bind_cases (motive := fun run : Except FacetError NodeHandle × ViewState Handle =>
    run.2.environment = state.environment) ?_ ?_
  · intro failure after hrun
    rw [← congrArg Prod.snd hrun]
    rfl
  · intro handle after hrun
    change after.environment = state.environment
    rw [← show _ = after from congrArg Prod.snd hrun]
    rfl

/-- The view after a run: the one before, or the one before with one descriptor replaced. -/
def ViewAfter (view : PosixView) (after : ViewState Handle) (descriptors : List Descriptor) :
    Prop :=
  after.environment.posixView = some { view with descriptors }

/-- What opening comes to: it fails and leaves the view alone, with `EMFILE` only if there is
no free place, or it fills the lowest free place. -/
def OpenOutcome (view : PosixView) (run : Except PosixFailure ℕ × ViewState Handle) : Prop :=
  (∃ failure after, run = (.error failure, after) ∧ ViewAfter view after view.descriptors
      ∧ (failure = .errno .mfile → freeDescriptor view.descriptors = none))
    ∨ ∃ slot descriptor after, run = (.ok slot, after)
      ∧ freeDescriptor view.descriptors = some slot ∧ descriptor ≠ .unused
      ∧ ViewAfter view after (view.descriptors.set slot descriptor)

/-- What a call on a descriptor comes to: it fails and changes nothing, or the descriptor is
in use and the call leaves a table that is `done`. -/
def DescriptorOutcome {α : Type} (state : ViewState Handle) (view : PosixView) (fd : Int32)
    (done : α → Descriptor → List Descriptor → Prop)
    (run : Except PosixFailure α × ViewState Handle) : Prop :=
  (∃ failure, run = (.error failure, state))
    ∨ ∃ value descriptor after descriptors, run = (.ok value, after)
      ∧ usedDescriptor view fd = .ok descriptor ∧ ViewAfter view after descriptors
      ∧ done value descriptor descriptors

variable (hview : state.environment.posixView = some view)

section View

include hview

theorem currentView_eq :
    currentView state = (.ok view, state) := by
  simp only [currentView, query, hview, Option.elim]

theorem posixView_setDescriptor (fd : ℕ) (descriptor : Descriptor) :
    (updateView (setDescriptor fd descriptor) state).environment.posixView
      = some (setDescriptor fd descriptor view) := by
  simp only [updateView, hview, Option.map_some]

theorem posixOpen_outcome (path : List UInt8)
    (flags : OpenFlags) : OpenOutcome view (posixOpen path flags state) := by
  have hfailed : ∀ {failure : PosixFailure}, (failure = .errno .mfile →
      freeDescriptor view.descriptors = none) → OpenOutcome view (.error failure, state) :=
    fun hmfile => .inl ⟨_, state, rfl, hview, hmfile⟩
  have hrejected : ∀ {condition : Prop} [Decidable condition] {failure other : PosixFailure},
      other ≠ .errno .mfile →
      (Attempts.ofExcept (reject condition other) : Attempt (ViewState Handle) _ Unit) state
        = (.error failure, state) → OpenOutcome view (.error failure, state) := by
    intro condition _ failure other hother hrun
    obtain ⟨-, rfl⟩ := Passes.reject_eq_error.mp (congrArg Prod.fst hrun)
    exact hfailed (fun hmfile => absurd hmfile hother)
  refine look_cases (moves_ofExcept _) (fun _ => hrejected (by simp)) (fun _ _ => ?_)
  refine look_cases (moves_ofExcept _) (fun _ => hrejected (by simp)) (fun _ _ => ?_)
  refine look_cases (moves_query _) (fun failure hrun => ?_) (fun current hcurrent => ?_)
  · cases (currentView_eq hview).symm.trans hrun
  obtain rfl := Except.ok.inj (congrArg Prod.fst ((currentView_eq hview).symm.trans hcurrent))
  refine look_cases (moves_ofOption _ _) (fun failure hrun => ?_) (fun slot hslot => ?_)
  · exact hfailed (fun _ => (ofOption_eq_error.mp hrun).1)
  obtain ⟨hfree, -⟩ := ofOption_eq_ok.mp hslot
  cases hfile : syntheticFile view path with
  | some file =>
    refine look_cases (moves_ofExcept _) (fun _ => hrejected (by simp)) (fun _ _ => ?_)
    exact .inr ⟨slot, _, _, rfl, hfree, Descriptor.noConfusion,
      posixView_setDescriptor hview slot _⟩
  | none =>
    refine look_cases (moves_mapFailure.mpr (moves_query _)) (fun failure hrun => ?_)
      (fun resolved _ => ?_)
    · obtain ⟨inner, -, rfl⟩ := mapFailure_eq_error.mp hrun
      exact hfailed (fun hmfile => by cases hmfile)
    have hkept := environment_openNode resolved.directory resolved.relative false state
    refine bind_cases (fun failure after hrun => ?_) (fun handle after hrun => ?_)
    · obtain ⟨inner, hinner, rfl⟩ := mapFailure_eq_error.mp hrun
      rw [show openNode resolved.directory resolved.relative false state = _ from hinner] at hkept
      exact .inl ⟨_, after, rfl, (congrArg _ hkept).trans hview,
        fun hmfile => absurd hmfile (by cases inner <;> simp [fileFailure])⟩
    · rw [show openNode resolved.directory resolved.relative false state = _ from
        mapFailure_eq_ok.mp hrun] at hkept
      exact .inr ⟨slot, _, _, rfl, hfree, Descriptor.noConfusion,
        posixView_setDescriptor ((congrArg _ hkept).trans hview) slot _⟩

/-- With a full table every path but the empty one is refused alike. -/
theorem posixOpen_full
    (hfull : freeDescriptor view.descriptors = none) {path : List UInt8} (hpath : path ≠ [])
    {flags : OpenFlags} (hflags : flags.Permitted) :
    posixOpen path flags state = (.error (.errno .mfile), state) := by
  have hnonempty : reject (path = []) (PosixFailure.result .invalidArgument) = .ok () :=
    Passes.reject_eq_ok.mpr hpath
  have hpermitted : reject (flags.readOnly = false ∨ flags.create ∨ flags.truncate ∨ flags.append)
      (PosixFailure.errno .rofs) = .ok () := by
    rw [Passes.reject_eq_ok]
    simp [hflags.1, hflags.2.1, hflags.2.2.1, hflags.2.2.2]
  simp only [posixOpen, bind_eq, Attempts.ofExcept, hnonempty, hpermitted, currentView_eq hview,
    ofOption, hfull, Option.elim]

section Outcomes

variable {α : Type} {fd : Int32} {done : α → Descriptor → List Descriptor → Prop}

omit hview in
theorem outcome_failed (failure : PosixFailure) :
    DescriptorOutcome state view fd done (.error failure, state) :=
  .inl ⟨failure, rfl⟩

/-- A call fails at once unless its descriptor is in use. -/
theorem outcome_used {next : Descriptor → Attempt (ViewState Handle) PosixFailure α}
    (hnext : ∀ descriptor, usedDescriptor view fd = .ok descriptor →
      DescriptorOutcome state view fd done (next descriptor state)) :
    DescriptorOutcome state view fd done ((do
      let view ← currentView
      let descriptor ← Attempts.ofExcept (usedDescriptor view fd)
      next descriptor) state) := by
  refine look_cases (moves_query _) (fun failure _ => outcome_failed failure)
    (fun current hcurrent => ?_)
  obtain rfl := Except.ok.inj (congrArg Prod.fst ((currentView_eq hview).symm.trans hcurrent))
  refine look_cases (moves_ofExcept _) (fun failure _ => outcome_failed failure)
    (fun descriptor hdescriptor => ?_)
  exact hnext descriptor (congrArg Prod.fst hdescriptor)

/-- A call ends by replacing its descriptor. -/
theorem outcome_set {old : Descriptor}
    (hused : usedDescriptor view fd = .ok old) (new : Descriptor) {value : α}
    (hdone : done value old (view.descriptors.set fd.toNatClampNeg new)) :
    DescriptorOutcome state view fd done
      (.ok value, updateView (setDescriptor fd.toNatClampNeg new) state) :=
  .inr ⟨value, old, _, _, rfl, hused, posixView_setDescriptor hview _ _, hdone⟩

/-- A call on a standard stream leaves the table alone. -/
theorem outcome_kept (hused : usedDescriptor view fd = .ok descriptor) {value : α}
    (hdone : done value descriptor view.descriptors) :
    DescriptorOutcome state view fd done (.ok value, state) :=
  .inr ⟨value, descriptor, state, _, rfl, hused, hview, hdone⟩

end Outcomes

theorem posixClose_outcome (fd : Int32) :
    DescriptorOutcome state view fd (fun _ _ descriptors => 3 ≤ fd.toNatClampNeg
      ∧ descriptors = view.descriptors.set fd.toNatClampNeg .unused) (posixClose fd state) := by
  refine outcome_used hview (fun descriptor hused => ?_)
  refine look_cases (moves_ofExcept _) (fun failure _ => outcome_failed failure) (fun _ hrun => ?_)
  refine outcome_set hview hused .unused ⟨?_, rfl⟩
  have hleast := Passes.reject_eq_ok.mp (congrArg Prod.fst hrun)
  rw [Int32.lt_iff_toInt_lt] at hleast
  rw [← Int32.toNat_toInt]
  change ¬fd.toInt < 3 at hleast
  omega

theorem posixRead_outcome (fd : Int32) (maximum : UInt32) (input : Except FacetError (List UInt8)) :
    DescriptorOutcome state view fd (fun _ descriptor descriptors => ∃ position,
      descriptors = view.descriptors.set fd.toNatClampNeg (descriptor.movedTo position))
      (posixRead fd maximum input state) := by
  refine outcome_used hview (fun descriptor hused => ?_)
  cases descriptor with
  | unused | output => exact outcome_failed _
  | input =>
    cases input with
    | error failure => exact outcome_failed _
    | ok data =>
      refine outcome_kept hview hused ⟨0, ?_⟩
      exact (set_live_self (usedDescriptor_eq_ok hused).2).symm
  | memory contents offset => exact outcome_set hview hused (.memory contents _) ⟨_, rfl⟩
  | file handle offset =>
    refine look_cases (moves_mapFailure.mpr (moves_query _))
      (fun failure _ => outcome_failed failure)
      (fun data _ => ?_)
    exact outcome_set hview hused (.file handle _) ⟨_, rfl⟩

theorem posixWrite_outcome (fd : Int32) (output : Except FacetError ℕ) :
    DescriptorOutcome state view fd (fun _ _ descriptors => descriptors = view.descriptors)
      (posixWrite fd output state) := by
  refine outcome_used hview (fun descriptor hused => ?_)
  cases descriptor with
  | output =>
    cases output with
    | error failure => exact outcome_failed _
    | ok count => exact outcome_kept hview hused rfl
  | unused | input | file _ _ | memory _ _ => exact outcome_failed _

theorem posixSeek_outcome (fd : Int32) (offset : Int64) (whence : Whence) :
    DescriptorOutcome state view fd (fun position descriptor descriptors =>
      descriptors = view.descriptors.set fd.toNatClampNeg (descriptor.movedTo position))
      (posixSeek fd offset whence state) := by
  refine outcome_used hview (fun descriptor hused => ?_)
  cases descriptor with
  | unused | input | output => exact outcome_failed _
  | memory contents position =>
    refine look_cases (moves_ofOption _ _) (fun failure _ => outcome_failed failure)
      (fun moved _ => ?_)
    exact outcome_set hview hused (.memory contents moved) rfl
  | file handle position =>
    refine look_cases (moves_mapFailure.mpr (moves_query _))
      (fun failure _ => outcome_failed failure)
      (fun size _ => ?_)
    refine look_cases (moves_ofOption _ _) (fun failure _ => outcome_failed failure)
      (fun moved _ => ?_)
    exact outcome_set hview hused (.file handle moved) rfl

/-! ## One step -/

end View

/-- A run follows the finite map and keeps the table in shape. -/
def FollowsTable (call : DescriptorCall) (view : PosixView)
    (run : Except PosixFailure PosixReply × ViewState Handle) : Prop :=
  ∃ after, run.2.environment.posixView = some after ∧ StandardTable after.descriptors
    ∧ TableStep call run.1 (live view.descriptors) (live after.descriptors)

/-- The table after a descriptor has been moved. -/
theorem live_move (htable : StandardTable view.descriptors) {fd : Int32}
    (hused : usedDescriptor view fd = .ok descriptor) (position : UInt64) :
    live (view.descriptors.set fd.toNatClampNeg (descriptor.movedTo position))
      = Function.update (live view.descriptors) fd.toNatClampNeg
        (some (descriptor.movedTo position)) := by
  obtain ⟨hbound, hlive⟩ := usedDescriptor_eq_ok hused
  obtain ⟨-, hunused⟩ := live_eq_some.mp hlive
  have hstill : descriptor.movedTo position ≠ .unused := by
    cases descriptor <;> simp_all [Descriptor.movedTo]
  rw [live_set (htable.length ▸ hbound), Option.filter_some_pos (by simpa using hstill)]

section Steps

variable (htable : StandardTable view.descriptors)

include hview htable

theorem followsTable_open (path : List UInt8) (flags : OpenFlags) (users : List FacetConfigUser) :
    FollowsTable (.open path flags) view ((PosixCall.open path flags).perform users state) := by
  rw [PosixCall.perform, bind_eq]
  obtain ⟨failure, after, hrun, hafter, -⟩ | ⟨slot, descriptor, after, hrun, hfree, hused,
    hafter⟩ := posixOpen_outcome hview path flags
  · rw [hrun]
    exact ⟨_, hafter, htable, .failed _ _ _⟩
  · rw [hrun]
    obtain ⟨⟨hleast, hbound⟩, hnone, hlowest⟩ := freeDescriptor_eq_some hfree
    refine ⟨_, hafter, htable.set hleast descriptor, ?_⟩
    rw [live_set hbound, Option.filter_some_pos (by simpa using hused)]
    exact .opened path flags slot descriptor _ ⟨hleast, htable.length ▸ hbound⟩ hnone hlowest

/-- A call on a descriptor follows the map if what it leaves when it succeeds does. -/
theorem followsTable_of_outcome {α : Type} {fd : Int32} {call : DescriptorCall}
    {run : Attempt (ViewState Handle) PosixFailure α} {reply : α → PosixReply}
    {done : α → Descriptor → List Descriptor → Prop}
    (houtcome : DescriptorOutcome state view fd done (run state))
    (hdone : ∀ value descriptor descriptors, usedDescriptor view fd = .ok descriptor →
      done value descriptor descriptors → StandardTable descriptors ∧
        TableStep call (.ok (reply value)) (live view.descriptors) (live descriptors)) :
    FollowsTable call view ((do let value ← run; return reply value) state) := by
  rw [bind_eq]
  obtain ⟨failure, hrun⟩ | ⟨value, descriptor, after, _, hrun, hused, hafter, hleft⟩ := houtcome
  · rw [hrun]
    exact ⟨view, hview, htable, .failed _ _ _⟩
  · rw [hrun]
    exact ⟨_, hafter, hdone value descriptor _ hused hleft⟩

/-- Every call follows the finite map. -/
theorem followsTable_perform (users : List FacetConfigUser) (call : DescriptorCall) :
    FollowsTable call view (call.toCall.perform users state) := by
  cases call with
  | «open» path flags => exact followsTable_open hview htable path flags users
  | close fd =>
    refine followsTable_of_outcome hview htable (posixClose_outcome hview fd) ?_
    rintro _ descriptor _ hused ⟨hleast, rfl⟩
    obtain ⟨hbound, hlive⟩ := usedDescriptor_eq_ok hused
    rw [live_set (htable.length ▸ hbound)]
    exact ⟨htable.set hleast .unused, .closed fd _ ⟨hleast, hbound⟩ (by simp [hlive])⟩
  | read fd maximum input =>
    refine followsTable_of_outcome hview htable (posixRead_outcome hview fd maximum input) ?_
    rintro data descriptor _ hused ⟨position, rfl⟩
    have hlive := (usedDescriptor_eq_ok hused).2
    rw [live_move htable hused]
    exact ⟨htable.move hlive position, .readAt fd maximum input data descriptor position _ hlive⟩
  | write fd output =>
    refine followsTable_of_outcome hview htable (posixWrite_outcome hview fd output) ?_
    rintro count descriptor _ hused rfl
    exact ⟨htable, .written fd output count _ (by simp [(usedDescriptor_eq_ok hused).2])⟩
  | seek fd offset whence =>
    refine followsTable_of_outcome hview htable (posixSeek_outcome hview fd offset whence) ?_
    rintro position descriptor _ hused rfl
    have hlive := (usedDescriptor_eq_ok hused).2
    rw [live_move htable hused]
    exact ⟨htable.move hlive position, .sought fd offset whence descriptor position _ hlive⟩

/-- `EMFILE` tells that no descriptor is free. -/
theorem perform_mfile_iff (users : List FacetConfigUser) {path : List UInt8} (hpath : path ≠ [])
    {flags : OpenFlags} (hflags : flags.Permitted) :
    ((PosixCall.open path flags).perform users state).1 = .error (.errno .mfile)
      ↔ ∀ fd, 3 ≤ fd → fd < posixDescriptorCount → live view.descriptors fd ≠ none := by
  rw [← htable.length, ← freeDescriptor_eq_none, PosixCall.perform, bind_eq]
  constructor
  · intro hmfile
    obtain ⟨failure, after, hrun, -, honly⟩ | ⟨slot, descriptor, after, hrun, -⟩ :=
      posixOpen_outcome hview path flags
    · rw [hrun] at hmfile
      exact honly (Except.error.inj hmfile)
    · rw [hrun] at hmfile
      cases hmfile
  · intro hfull
    rw [posixOpen_full hview hfull hpath hflags]

end Steps

/-! ## Runs -/

/-- The process has a view whose table is in shape. -/
def Shaped (state : ViewState Handle) : Prop :=
  ∃ view, state.environment.posixView = some view ∧ StandardTable view.descriptors

/-- The state after a sequence of calls. -/
def afterCalls (users : List FacetConfigUser) (state : ViewState Handle)
    (calls : List DescriptorCall) : ViewState Handle :=
  (Runs.outputs (fun state (call : DescriptorCall) => call.toCall.perform users state) state
    calls).2

/-- After any calls the standard streams are in place; the next call follows the finite
map, and it reports `EMFILE` for a path that is not empty exactly if the descriptors
from 3 on are all in use. -/
theorem descriptor_table_run (users : List FacetConfigUser) (state : ViewState Handle)
    (view : PosixView) (hview : state.environment.posixView = some view)
    (htable : StandardTable view.descriptors) (calls : List DescriptorCall)
    (call : DescriptorCall) :
    ∃ before after,
      (afterCalls users state calls).environment.posixView = some before
        ∧ (call.toCall.perform users (afterCalls users state calls)).2.environment.posixView
          = some after
        ∧ StandardTable before.descriptors ∧ StandardTable after.descriptors
        ∧ TableStep call (call.toCall.perform users (afterCalls users state calls)).1
          (live before.descriptors) (live after.descriptors)
        ∧ ∀ path flags, call = .open path flags → path ≠ [] → flags.Permitted →
          ((call.toCall.perform users (afterCalls users state calls)).1
              = .error (.errno .mfile)
            ↔ ∀ fd, 3 ≤ fd → fd < posixDescriptorCount →
              live before.descriptors fd ≠ none) := by
  have hkeeps : ∀ (reached : ViewState Handle) (next : DescriptorCall), Shaped reached →
      Shaped (next.toCall.perform users reached).2 := by
    rintro reached next ⟨current, hcurrent, hstandard⟩
    obtain ⟨later, hlater, hkept, -⟩ := followsTable_perform hcurrent hstandard users next
    exact ⟨later, hlater, hkept⟩
  obtain ⟨before, hbefore, hshape⟩ : Shaped (afterCalls users state calls) :=
    Runs.invariant_outputs hkeeps ⟨view, hview, htable⟩ calls
  obtain ⟨after, hafter, hkept, hstep⟩ := followsTable_perform hbefore hshape users call
  refine ⟨before, after, hbefore, hafter, hshape, hkept, hstep, ?_⟩
  rintro path flags rfl hpath hflags
  exact perform_mfile_iff hbefore hshape users hpath hflags

end Calls

/-- Reading from the first file that is opened moves descriptor 3. -/
theorem descriptor_table_run_notice :
    ∃ before after : PosixView,
      (afterCalls [] (stateWith .unused) [.open (ascii "notice") ⟨true, false, false, false⟩]
          ).environment.posixView = some before
        ∧ TableStep (.read 3 8 (.ok [])) (.ok (.data [7])) (live before.descriptors)
          (live after.descriptors) := by
  obtain ⟨before, after, hbefore, -, -, -, hstep, -⟩ := descriptor_table_run []
    (stateWith .unused) _ rfl (StandardTable.set ⟨rfl, rfl⟩ le_rfl .unused)
    [.open (ascii "notice") ⟨true, false, false, false⟩] (.read 3 8 (.ok []))
  have hread : ((DescriptorCall.read 3 8 (.ok [])).toCall.perform []
      (afterCalls [] (stateWith .unused)
        [.open (ascii "notice") ⟨true, false, false, false⟩])).1 = .ok (.data [7]) := by
    decide +kernel
  rw [hread] at hstep
  exact ⟨before, after, hbefore, hstep⟩

/-- After 61 opens. -/
def fullState : ViewState ℕ :=
  afterCalls [] (stateWith .unused)
    (List.replicate 61 (.open (ascii "notice") ⟨true, false, false, false⟩))

/-- All descriptors are in use, and the empty path is not answered with `EMFILE`. -/
theorem full_table_empty_path :
    (∃ view, fullState.environment.posixView = some view
        ∧ ∀ fd, 3 ≤ fd → fd < posixDescriptorCount → live view.descriptors fd ≠ none)
      ∧ OpenFlags.Permitted ⟨true, false, false, false⟩
      ∧ ((PosixCall.open [] ⟨true, false, false, false⟩).perform [] fullState).1
        ≠ .error (.errno .mfile) := by
  have hfull : ∃ view ∈ fullState.environment.posixView,
      view.descriptors.length = posixDescriptorCount
        ∧ freeDescriptor view.descriptors = none := by
    decide +kernel
  obtain ⟨view, hview, hlength, hfree⟩ := hfull
  exact ⟨⟨view, hview, hlength ▸ freeDescriptor_eq_none.mp hfree⟩, ⟨rfl, rfl, rfl, rfl⟩,
    by decide +kernel⟩

end FacetOS.Posix
