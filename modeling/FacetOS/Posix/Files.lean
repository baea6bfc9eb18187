import FacetOS.Initrd.Accepted
import FacetOS.Posix.Descriptors

/-!
# Synthetic and stored files

A descriptor reads either from bytes that the view holds or through a handle from a
file of the archive.  Both are compared with a plain file: its contents, an offset,
and reads and seeks on them.
-/

namespace FacetOS.Posix

open Process FileView Attempts Runs Checked
open Initrd (InitrdEntry FacetInitrd facetInitrdCreate facetInitrdNodeRead
  facetInitrdNodeSize size_lt_of_create)
open Rpc (FacetError)

/-! ## A plain file -/

/-- What a caller does with an open file. -/
inductive FileAction
  | read (maximum : UInt32)
  | seek (offset : Int64) (whence : Whence)

inductive FileAnswer
  | bytes (data : List UInt8)
  | moved (position : UInt64)
  deriving DecidableEq

/-- The answer of a call and the offset that it leaves. -/
abbrev Observation := Except PosixFailure FileAnswer × Option UInt64

/-- A read returns what lies behind the offset, up to the maximum, and moves past it; a
seek goes to the exact sum or reports `EINVAL`. -/
def plainFile (contents : List UInt8) (position : UInt64) : FileAction → Observation × UInt64
  | .read maximum =>
    let data := (contents.drop position.toNat).take maximum.toNat
    let moved := position + data.length.toUInt64
    ((.ok (.bytes data), some moved), moved)
  | .seek offset whence =>
    match exactTarget (exactBase position contents.length.toUInt64 whence) offset.toInt with
    | some target => ((.ok (.moved target.toUInt64), some target.toUInt64), target.toUInt64)
    | none => ((.error (.errno .inval), some position), position)

section Plain

variable {contents : List UInt8} {position : UInt64}

/-- Offsets stay in the range of a signed word. -/
theorem plainFile_lt (hcontents : contents.length < 2 ^ 63) (hposition : position.toNat < 2 ^ 63)
    (action : FileAction) : (plainFile contents position action).2.toNat < 2 ^ 63 := by
  cases action with
  | read maximum =>
    simp only [plainFile, UInt64.toNat_add, Nat.toUInt64_eq, UInt64.toNat_ofNat',
      List.length_take, List.length_drop]
    omega
  | seek offset whence =>
    simp only [plainFile]
    cases htarget : exactTarget (exactBase position contents.length.toUInt64 whence)
        offset.toInt with
    | none => exact hposition
    | some target =>
      obtain ⟨base, -, hrange⟩ := Option.bind_eq_some_iff.mp htarget
      split at hrange
      · obtain rfl := Option.some.inj hrange
        dsimp only
        rw [Nat.toUInt64_eq, UInt64.toNat_ofNat']
        omega
      · cases hrange

end Plain

/-! ## Descriptors -/

section Views

variable {Handle : Type}

/-- The answer of a terminal is not asked for. -/
def FileAction.perform (fd : Int32) :
    FileAction → Attempt (ViewState Handle) PosixFailure FileAnswer
  | .read maximum => do
      let data ← posixRead fd maximum (.ok [])
      return .bytes data
  | .seek offset whence => do
      let moved ← posixSeek fd offset whence
      return .moved moved

def descriptorAt (state : ViewState Handle) (fd : Int32) : Option Descriptor :=
  state.environment.posixView.bind fun view => (usedDescriptor view fd).toOption

/-- A call on a descriptor with what its caller can see of it. -/
def observed (fd : Int32) (state : ViewState Handle) (action : FileAction) :
    Observation × ViewState Handle :=
  let run := action.perform fd state
  ((run.1, (descriptorAt run.2 fd).map Descriptor.position), run.2)

variable {state : ViewState Handle} {fd : Int32} {descriptor : Descriptor}

theorem descriptorAt_eq_some (hheld : descriptorAt state fd = some descriptor) :
    ∃ view, state.environment.posixView = some view ∧ usedDescriptor view fd = .ok descriptor := by
  obtain ⟨view, hview, hused⟩ := Option.bind_eq_some_iff.mp hheld
  refine ⟨view, hview, ?_⟩
  cases hresult : usedDescriptor view fd with
  | error failure => simp [hresult, Except.toOption] at hused
  | ok found => simpa [hresult, Except.toOption] using hused

/-- A descriptor that is overwritten holds what it was given. -/
theorem descriptorAt_updateView (hheld : descriptorAt state fd = some descriptor)
    {moved : Descriptor} (hmoved : moved ≠ .unused) :
    descriptorAt (updateView (setDescriptor fd.toNatClampNeg moved) state) fd = some moved := by
  obtain ⟨view, hview, hused⟩ := descriptorAt_eq_some hheld
  have hrange : ¬ (fd < 0 ∨ (posixDescriptorCount : ℤ) ≤ fd.toInt) := by
    intro hout
    rw [usedDescriptor, if_pos hout] at hused
    cases hused
  have hlength : fd.toNatClampNeg < view.descriptors.length := by
    obtain ⟨hget, -⟩ := live_eq_some.mp (usedDescriptor_eq_ok hused).2
    exact (List.getElem?_eq_some_iff.mp hget).1
  rw [descriptorAt, posixView_setDescriptor hview, Option.bind_some, usedDescriptor,
    if_neg hrange]
  simp only [setDescriptor, List.getElem?_set_self hlength]
  cases moved with
  | unused => exact absurd rfl hmoved
  | input | output | memory | file => rfl

namespace Descriptor

/-- What reading from the offset answers. -/
def readData (stores : Stores) (maximum : UInt32) : Descriptor → Except FacetError (List UInt8)
  | .memory contents position => .ok ((contents.drop position.toNat).take maximum.toNat)
  | .file handle position => readFile stores handle position.toNat maximum.toNat
  | _ => .error .invalidHandle

end Descriptor

theorem posixRead_eq {view : PosixView} (hview : state.environment.posixView = some view)
    (hused : usedDescriptor view fd = .ok descriptor)
    (hsize : (descriptor.size state.stores).isSome) (maximum : UInt32)
    (input : Except FacetError (List UInt8)) :
    posixRead fd maximum input state
      = match descriptor.readData state.stores maximum with
        | .ok data => (.ok data, updateView (setDescriptor fd.toNatClampNeg
            (descriptor.movedTo (descriptor.position + data.length.toUInt64))) state)
        | .error failure => (.error (readFailure failure), state) := by
  simp only [posixRead, bind_eq, currentView_eq hview, Attempts.ofExcept, hused]
  cases descriptor with
  | unused | input | output => cases hsize
  | memory contents position => rfl
  | file handle position =>
    simp only [Descriptor.readData, bind_eq, mapFailure, query]
    cases readFile state.stores handle position.toNat maximum.toNat <;> rfl

theorem movedTo_ne_unused {stores : Stores} (hsize : (descriptor.size stores).isSome)
    (position : UInt64) : descriptor.movedTo position ≠ .unused := by
  cases descriptor with
  | unused | input | output => cases hsize
  | memory | file => simp [Descriptor.movedTo]

theorem position_movedTo {stores : Stores} (hsize : (descriptor.size stores).isSome)
    (position : UInt64) : (descriptor.movedTo position).position = position := by
  cases descriptor with
  | unused | input | output => cases hsize
  | memory | file => rfl

/-- A read as one step on a descriptor that has an offset. -/
theorem observed_read (hheld : descriptorAt state fd = some descriptor)
    (hsize : (descriptor.size state.stores).isSome) (maximum : UInt32) :
    observed fd state (.read maximum)
      = match descriptor.readData state.stores maximum with
        | .ok data =>
          let moved := descriptor.position + data.length.toUInt64
          ((.ok (.bytes data), some moved),
            updateView (setDescriptor fd.toNatClampNeg (descriptor.movedTo moved)) state)
        | .error failure => ((.error (readFailure failure), some descriptor.position), state) := by
  obtain ⟨view, hview, hused⟩ := descriptorAt_eq_some hheld
  simp only [observed, FileAction.perform, bind_eq, posixRead_eq hview hused hsize]
  cases descriptor.readData state.stores maximum with
  | error failure =>
    rw [hheld, Option.map_some]
  | ok data =>
    dsimp only [pure]
    rw [descriptorAt_updateView hheld (movedTo_ne_unused hsize _), Option.map_some,
      position_movedTo hsize]

theorem observed_seek (hheld : descriptorAt state fd = some descriptor) {size : UInt64}
    (hsize : descriptor.size state.stores = some size) (offset : Int64) (whence : Whence) :
    observed fd state (.seek offset whence)
      = match descriptor.seekTarget (seekBase descriptor.position size whence) offset with
        | some moved => ((.ok (.moved moved), some moved),
            updateView (setDescriptor fd.toNatClampNeg (descriptor.movedTo moved)) state)
        | none => ((.error (.errno .inval), some descriptor.position), state) := by
  obtain ⟨view, hview, hused⟩ := descriptorAt_eq_some hheld
  simp only [observed, FileAction.perform, bind_eq, posixSeek_eq hview hused hsize]
  have hsome : (descriptor.size state.stores).isSome := hsize ▸ rfl
  cases descriptor.seekTarget (seekBase descriptor.position size whence) offset with
  | none =>
    rw [hheld, Option.map_some]
  | some moved =>
    dsimp only [pure]
    rw [descriptorAt_updateView hheld (movedTo_ne_unused hsome _), Option.map_some,
      position_movedTo hsome]

theorem movedTo_position (descriptor : Descriptor) :
    descriptor.movedTo descriptor.position = descriptor := by
  cases descriptor <;> rfl

/-- A step whose read and whose seek are those of the plain file follows it. -/
theorem observed_plain {contents : List UInt8} (hheld : descriptorAt state fd = some descriptor)
    (hsize : descriptor.size state.stores = some contents.length.toUInt64) {action : FileAction}
    (hread : ∀ maximum, action = .read maximum → descriptor.readData state.stores maximum
      = .ok ((contents.drop descriptor.position.toNat).take maximum.toNat))
    (hseek : ∀ offset whence, action = .seek offset whence →
      descriptor.seekTarget (seekBase descriptor.position contents.length.toUInt64 whence) offset
        = (exactTarget (exactBase descriptor.position contents.length.toUInt64 whence)
            offset.toInt).map Nat.toUInt64) :
    (observed fd state action).1 = (plainFile contents descriptor.position action).1
      ∧ descriptorAt (observed fd state action).2 fd
        = some (descriptor.movedTo (plainFile contents descriptor.position action).2)
      ∧ (observed fd state action).2.stores = state.stores := by
  have hsome : (descriptor.size state.stores).isSome := hsize ▸ rfl
  cases action with
  | read maximum =>
    rw [observed_read hheld hsome, hread maximum rfl]
    exact ⟨rfl, descriptorAt_updateView hheld (movedTo_ne_unused hsome _), rfl⟩
  | seek offset whence =>
    rw [observed_seek hheld hsize, hseek offset whence rfl, plainFile]
    cases exactTarget (exactBase descriptor.position contents.length.toUInt64 whence)
        offset.toInt with
    | none => exact ⟨rfl, hheld.trans (congrArg some (movedTo_position _).symm), rfl⟩
    | some target =>
      exact ⟨rfl, descriptorAt_updateView hheld (movedTo_ne_unused hsome _), rfl⟩

end Views

/-! ## The guards on ordinary offsets -/

section Guards

variable {position size : UInt64} {whence : Whence} (hposition : position.toNat < 2 ^ 63)
  (hsize : size.toNat < 2 ^ 63)
include hposition hsize

theorem baseWord_lt {base : UInt64} (hbase : baseWord position size whence = some base) :
    base.toNat < 2 ^ 63 := by
  cases whence with
  | set =>
    obtain rfl := Option.some.inj hbase
    decide
  | current =>
    obtain rfl := Option.some.inj hbase
    exact hposition
  | fromEnd =>
    obtain rfl := Option.some.inj hbase
    exact hsize
  | other => cases hbase

theorem seekMemory_exact (offset : Int64) (whence : Whence) :
    seekMemory (seekBase position size whence) offset
      = (exactTarget (exactBase position size whence) offset.toInt).map Nat.toUInt64 := by
  rw [seekBase_eq, exactBase_eq]
  cases hbase : baseWord position size whence with
  | none =>
    rw [Option.map_none, Option.map_none, seekMemory, if_pos (.inl (by decide))]
    rfl
  | some base =>
    rw [Option.map_some, Option.map_some, seekMemory_eq,
      if_pos (baseWord_lt hposition hsize hbase)]

omit hposition hsize in
theorem offset_ne_least {offset : Int64} {base : UInt64}
    (hbase : baseWord position size whence = some base)
    (hoffset : whence = .other ∨ offset ≠ Int64.minValue) : offset.toInt ≠ -2 ^ 63 := by
  have hother : whence ≠ .other := by
    rintro rfl
    cases hbase
  exact fun heq => hoffset.resolve_left hother (Int64.toInt_inj.mp heq)

theorem seekFile_exact {offset : Int64} (hoffset : whence = .other ∨ offset ≠ Int64.minValue) :
    seekFile (seekBase position size whence) offset
      = (exactTarget (exactBase position size whence) offset.toInt).map Nat.toUInt64 := by
  rw [seekBase_eq, exactBase_eq]
  cases hbase : baseWord position size whence with
  | none => rfl
  | some base =>
    exact seekFile_eq base offset (baseWord_lt hposition hsize hbase)
      (offset_ne_least hbase hoffset)

/-- The least offset moves a file where there is no target. -/
theorem seekFile_least (hwhence : whence ≠ .other) :
    (∃ moved, seekFile (seekBase position size whence) Int64.minValue = some moved)
      ∧ exactTarget (exactBase position size whence) Int64.minValue.toInt = none := by
  have hleast : Int64.minValue.toInt = -2 ^ 63 := by decide
  rw [seekBase_eq, exactBase_eq]
  cases hbase : baseWord position size whence with
  | none =>
    cases whence with
    | other => exact absurd rfl hwhence
    | set | current | fromEnd => cases hbase
  | some base =>
    have hsmall := baseWord_lt hposition hsize hbase
    have hword := base.toInt64.le_toInt
    constructor
    · refine ⟨(base.toInt64 + Int64.minValue).toUInt64, if_neg ?_⟩
      simp only [Int64.lt_iff_toInt_lt, toInt_neg_cond, hleast, Int64.toInt_zero, if_true]
      omega
    · simp only [Option.map_some, exactTarget, Option.bind_some, hleast]
      rw [if_neg (by omega)]

end Guards

/-! ## The two kinds of descriptor -/

/-- The read starts at or before the end, or the seek's offset is not `INT64_MIN`. -/
def SafeAction (contents : List UInt8) (position : UInt64) : FileAction → Prop
  | .read _ => position.toNat ≤ contents.length
  | .seek offset whence => whence = .other ∨ offset ≠ Int64.minValue

instance (contents : List UInt8) (position : UInt64) :
    DecidablePred (SafeAction contents position)
  | .read _ => inferInstanceAs (Decidable (_ ≤ _))
  | .seek _ _ => inferInstanceAs (Decidable (_ ∨ _))

/-- The sum of the base, if there is one, and the offset is not above `INT64_MAX`. -/
def SumInRange (contents : List UInt8) (position : UInt64) : FileAction → Prop
  | .read _ => True
  | .seek offset whence =>
    ∀ base ∈ exactBase position contents.length.toUInt64 whence, base + offset.toInt < 2 ^ 63

/-- No signed operation of the two guards overflows. -/
def SeekDefined (contents : List UInt8) (position : UInt64) : FileAction → Prop
  | .read _ => True
  | .seek offset whence => ∀ guard ∈ [seekMemorySigned, seekFileSigned], ∃ target,
    guard ((seekBase position contents.length.toUInt64 whence).map Int64.toInt) offset.toInt
      = .ok target

/-- The handle belongs to an open file of an accepted archive that the store's
credentials may read. -/
structure ReadableFile (stores : Stores) (handle : NodeHandle) (entry : InitrdEntry) : Prop where
  opened : ∃ store image, stores[handle.store]? = some store ∧
    facetInitrdCreate image = some store.initrd ∧ entry ∈ store.initrd.entries ∧
    store.nodes.find? (fun node => node.handle == handle.node && node.directory == false)
      = some ⟨.backing entry, false, handle.node⟩ ∧
    checkAccess store.credentials entry 4 = .ok ()
  file : entry.directory = false

section Files

variable {Handle : Type} {stores : Stores} {handle : NodeHandle} {entry : InitrdEntry}

theorem ReadableFile.readFile_eq (hfile : ReadableFile stores handle entry) (offset maximum : ℕ) :
    readFile stores handle offset maximum = facetInitrdNodeRead entry offset maximum := by
  obtain ⟨store, image, hstore, -, -, hnode, haccess⟩ := hfile.opened
  simp only [readFile, hstore, withNode, Option.all_some]
  rw [hnode]
  simp only [fileRead, haccess]

theorem ReadableFile.nodeSize_eq (hfile : ReadableFile stores handle entry) :
    nodeSize stores handle = .ok entry.size := by
  obtain ⟨store, image, hstore, -, -, hnode, -⟩ := hfile.opened
  simp only [nodeSize, hstore, withNode, Option.all_some]
  rw [hnode]
  simp only [fileSize, facetInitrdNodeSize, hfile.file]
  rfl

theorem ReadableFile.short (hfile : ReadableFile stores handle entry) :
    entry.data.length < 2 ^ 63 := by
  obtain ⟨store, image, -, hcreate, hentry, -⟩ := hfile.opened
  have hshort := size_lt_of_create hcreate hentry
  rw [InitrdEntry.size] at hshort
  omega

variable {contents : List UInt8}

theorem toNat_length_lt (hcontents : contents.length < 2 ^ 63) :
    contents.length.toUInt64.toNat < 2 ^ 63 := by
  rw [Nat.toUInt64_eq, UInt64.toNat_ofNat']
  omega

theorem facetInitrdNodeRead_within (hfile : entry.directory = false) {offset : ℕ}
    (hoffset : offset ≤ entry.data.length) (maximum : ℕ) :
    facetInitrdNodeRead entry offset maximum = .ok ((entry.data.drop offset).take maximum) := by
  have htake : (entry.data.drop offset).take (min (entry.data.length - offset) maximum)
      = (entry.data.drop offset).take maximum := by
    rw [List.take_eq_take_iff, List.length_drop]
    omega
  rw [facetInitrdNodeRead, InitrdEntry.size, if_neg (by simp [hfile, hoffset]), htake]

theorem seekDefined_iff (hcontents : contents.length < 2 ^ 63)
    {position : UInt64} (hposition : position.toNat < 2 ^ 63) {action : FileAction}
    (hsafe : SafeAction contents position action) :
    SeekDefined contents position action ↔ SumInRange contents position action := by
  cases action with
  | read maximum => exact Iff.rfl
  | seek offset whence =>
    rw [SeekDefined, SumInRange, seekBase_eq, exactBase_eq]
    cases hbase : baseWord position contents.length.toUInt64 whence with
    | none => simp [seekMemorySigned, seekFileSigned]
    | some base =>
      have hsum := seekMemorySigned_isOk base offset
        (baseWord_lt hposition (toNat_length_lt hcontents) hbase)
      have hleast := (seekFileSigned_isOk base offset).mpr (offset_ne_least hbase hsafe)
      simp [hsum, hleast]

/-- The descriptor is over the contents, at an offset in the range of a signed word. -/
def MemoryAt (fd : Int32) (contents : List UInt8) (state : ViewState Handle) (position : UInt64) :
    Prop :=
  descriptorAt state fd = some (.memory contents position) ∧ position.toNat < 2 ^ 63

/-- A synthetic file follows the plain file at every step. -/
theorem memory_follows (hcontents : contents.length < 2 ^ 63)
    {fd : Int32} (state : ViewState Handle) (position : UInt64) (action : FileAction)
    (hheld : MemoryAt fd contents state position) :
    (observed fd state action).1 = (plainFile contents position action).1
      ∧ MemoryAt fd contents (observed fd state action).2
        (plainFile contents position action).2 := by
  obtain ⟨hheld, hposition⟩ := hheld
  obtain ⟨hanswer, hnext, -⟩ := @observed_plain Handle state fd _ contents hheld rfl action
    (fun maximum _ => rfl)
    (fun offset whence _ =>
      seekMemory_exact hposition (toNat_length_lt hcontents) offset whence)
  exact ⟨hanswer, hnext, plainFile_lt hcontents hposition action⟩

/-- The descriptor is over the node of the stores, at an offset in the range of a signed
word. -/
def FileAt (fd : Int32) (stores : Stores) (handle : NodeHandle) (state : ViewState Handle)
    (position : UInt64) : Prop :=
  descriptorAt state fd = some (.file handle position) ∧ position.toNat < 2 ^ 63
    ∧ state.stores = stores

section Stored

variable (hfile : ReadableFile stores handle entry)
include hfile

theorem ReadableFile.size_eq (position : UInt64) :
    (Descriptor.file handle position).size stores = some entry.data.length.toUInt64 := by
  simp only [Descriptor.size, hfile.nodeSize_eq]
  rfl

variable {fd : Int32} (state : ViewState Handle) (position : UInt64) (action : FileAction)

/-- A stored file follows the plain file at safe steps. -/
theorem file_follows (hheld : FileAt fd stores handle state position)
    (hsafe : SafeAction entry.data position action) :
    (observed fd state action).1 = (plainFile entry.data position action).1
      ∧ FileAt fd stores handle (observed fd state action).2
        (plainFile entry.data position action).2 := by
  obtain ⟨hheld, hposition, rfl⟩ := hheld
  refine And.imp_right
    (fun hnext => ⟨hnext.1, plainFile_lt hfile.short hposition action, hnext.2⟩)
    (observed_plain hheld (hfile.size_eq position) ?_ ?_)
  · rintro maximum rfl
    rw [Descriptor.readData, hfile.readFile_eq]
    exact facetInitrdNodeRead_within hfile.file hsafe maximum.toNat
  · rintro offset whence rfl
    exact seekFile_exact hposition (toNat_length_lt hfile.short) hsafe

/-- At an unsafe step a stored file answers something else. -/
theorem file_differs (hheld : FileAt fd stores handle state position)
    (hbeyond : ¬ SafeAction entry.data position action) :
    (observed fd state action).1 ≠ (plainFile entry.data position action).1 := by
  obtain ⟨hheld, hposition, rfl⟩ := hheld
  have hsize := hfile.size_eq position
  cases action with
  | read maximum =>
    have hbehind : entry.data.length < position.toNat := not_le.mp hbeyond
    have hrefused : (Descriptor.file handle position).readData state.stores maximum
        = .error .invalidArgument := by
      rw [Descriptor.readData, hfile.readFile_eq]
      exact if_pos (.inr hbehind)
    rw [observed_read hheld (hsize ▸ rfl), hrefused]
    simp [plainFile]
  | seek offset whence =>
    obtain ⟨hwhence, hoffset⟩ := not_or.mp hbeyond
    obtain rfl := not_not.mp hoffset
    obtain ⟨⟨moved, hmoved⟩, hnone⟩ :=
      seekFile_least hposition (toNat_length_lt hfile.short) hwhence
    have htarget : (Descriptor.file handle position).seekTarget
        (seekBase position entry.data.length.toUInt64 whence) Int64.minValue = some moved := hmoved
    rw [observed_seek hheld hsize, Descriptor.position, htarget, plainFile, hnone]
    simp

end Stored

/-- Both descriptors give the same answers, errors and offsets along the actions, and
those of the plain file, and no seek overflows. -/
structure ReadAlike (memoryFd fileFd : Int32) (memory file : ViewState Handle)
    (contents : List UInt8) (actions : List FileAction) : Prop where
  same : (outputs (observed memoryFd) memory actions).1 = (outputs (observed fileFd) file actions).1
  plain : (outputs (observed memoryFd) memory actions).1
    = (outputs (plainFile contents) 0 actions).1
  defined : Along (plainFile contents) (SeekDefined contents) 0 actions

/-- A synthetic file and a stored file with the same contents, both just opened, behave
alike and as a plain file along exactly those sequences in which no read starts behind
the end, no seek is by `INT64_MIN` and no seek is to a sum above `INT64_MAX`. -/
theorem read_alike_iff (hfile : ReadableFile stores handle entry) (memoryFd fileFd : Int32)
    (memory file : ViewState Handle)
    (hmemory : descriptorAt memory memoryFd = some (.memory entry.data 0))
    (hstored : descriptorAt file fileFd = some (.file handle 0)) (hstores : file.stores = stores)
    (actions : List FileAction) :
    ReadAlike memoryFd fileFd memory file entry.data actions
      ↔ Along (plainFile entry.data) (fun position action =>
        SafeAction entry.data position action ∧ SumInRange entry.data position action) 0
        actions := by
  have hplain : (outputs (observed memoryFd) memory actions).1
      = (outputs (plainFile entry.data) 0 actions).1 :=
    (outputs_related (memory_follows hfile.short) ⟨hmemory, by decide⟩ actions).1
  have hexact : (outputs (observed fileFd) file actions).1
        = (outputs (plainFile entry.data) 0 actions).1
      ↔ Along (plainFile entry.data) (SafeAction entry.data) 0 actions :=
    outputs_eq_iff_along (file_follows hfile) (file_differs hfile) ⟨hstored, by decide, hstores⟩
      actions
  calc ReadAlike memoryFd fileFd memory file entry.data actions
      ↔ Along (plainFile entry.data) (SafeAction entry.data) 0 actions
        ∧ Along (plainFile entry.data) (SeekDefined entry.data) 0 actions := by
        rw [← hexact]
        exact ⟨fun halike => ⟨halike.same.symm.trans hplain, halike.defined⟩,
          fun hequal => ⟨hplain.trans hequal.1.symm, hplain, hequal.2⟩⟩
    _ ↔ _ := along_and.symm
    _ ↔ _ := along_congr
        (fun position action hposition => and_congr_right (seekDefined_iff hfile.short hposition))
        (fun position action hposition _ => plainFile_lt hfile.short hposition action)
        (by decide) actions

end Files

/-! ## Reading behind the end -/

/-- An archive with the file `notice`. -/
def noticeImage : List UInt8 :=
  ascii "07070100000001000081a400000000000000000000000100000000" ++
    ascii "00000001" ++ ascii "00000000000000000000000000000000" ++ ascii "0000000700000000" ++
    ascii "notice" ++ [0, 0, 0, 0, 7]

theorem create_noticeImage : facetInitrdCreate noticeImage = some noticeArchive := by
  have hentries : (facetInitrdCreate noticeImage).map FacetInitrd.entries
      = some noticeArchive.entries := by
    decide +kernel
  obtain ⟨initrd, hcreate, hsame⟩ := Option.map_eq_some_iff.mp hentries
  rw [hcreate]
  cases initrd
  cases hsame
  rfl

theorem readable_notice :
    ReadableFile (stateWith (.file ⟨0, 1⟩ 0)).stores ⟨0, 1⟩ noticeFile where
  opened := ⟨_, noticeImage, rfl, create_noticeImage, by decide, by decide, by decide⟩
  file := rfl

theorem read_alike_notice :
    ReadAlike 3 3 (stateWith (.memory [7] 0)) (stateWith (.file ⟨0, 1⟩ 0)) [7]
      [.read 4, .read 4, .seek (-1) .fromEnd] :=
  (read_alike_iff readable_notice 3 3 (stateWith (.memory [7] 0)) (stateWith (.file ⟨0, 1⟩ 0))
    rfl rfl rfl _).mpr ⟨⟨by decide, trivial⟩, ⟨by decide, trivial⟩,
      ⟨by decide, by rintro base ⟨⟩; decide⟩, trivial⟩

/-- Two bytes behind the start of a file with one byte, the synthetic file reads nothing
and the stored file fails. -/
theorem read_behind_end_differs :
    ¬ ReadAlike 3 3 (stateWith (.memory [7] 0)) (stateWith (.file ⟨0, 1⟩ 0)) [7]
        [.seek 2 .set, .read 1]
      ∧ (outputs (observed 3) (stateWith (.memory [7] 0)) [.seek 2 .set, .read 1]).1
        = [(.ok (.moved 2), some 2), (.ok (.bytes []), some 2)]
      ∧ (outputs (observed 3) (stateWith (.file ⟨0, 1⟩ 0)) [.seek 2 .set, .read 1]).1
        = [(.ok (.moved 2), some 2), (.error (.result .invalidArgument), some 2)] := by
  have hmemory : (outputs (observed 3) (stateWith (.memory [7] 0)) [.seek 2 .set, .read 1]).1
      = [(.ok (.moved 2), some 2), (.ok (.bytes []), some 2)] := by
    decide +kernel
  have hfile : (outputs (observed 3) (stateWith (.file ⟨0, 1⟩ 0)) [.seek 2 .set, .read 1]).1
      = [(.ok (.moved 2), some 2), (.error (.result .invalidArgument), some 2)] := by
    decide +kernel
  refine ⟨fun halike => ?_, hmemory, hfile⟩
  have hsame := hmemory.symm.trans (halike.same.trans hfile)
  simp at hsame

end FacetOS.Posix
