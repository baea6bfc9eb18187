import FacetOS.Posix.Resolution
import FacetOS.Process.Launch

/-!
# Calls of a POSIX view

The methods of `IPOSIXView` that concern files, directories and the identity of the
process.  A call works on the environment of its process, which holds the view, and
on the credential stores; it either reports a transport result or an `errno`.  What
the standard streams answer is part of the call.
-/

namespace FacetOS.Posix

open Process FileView Attempts Initrd Paths
open Config (FacetConfigUser)
open Rpc (FacetError)
open Passes (reject)

/-! ## State and failures -/

/-- What a call works on.  `opened` records the nodes that the view has opened. -/
structure ViewState (Handle : Type) where
  environment : ProcessEnvironment Handle
  stores : Stores
  opened : List NodeHandle

/-- A call fails with a result of its own or succeeds with an error number. -/
inductive PosixFailure
  | result (failure : FacetError)
  | errno (error : Errno)
  deriving DecidableEq

/-- What is reported if something cannot be opened or read. -/
def fileFailure : FacetError → PosixFailure
  | .notFound => .errno .noent
  | .accessDenied => .errno .acces
  | failure => .result failure

section Calls

variable {Handle : Type}

def currentView : Attempt (ViewState Handle) PosixFailure PosixView :=
  query (fun state => state.environment.posixView.elim (.error (.result .invalidHandle)) .ok)

def updateView (change : PosixView → PosixView) (state : ViewState Handle) : ViewState Handle :=
  { state with
    environment := { state.environment with posixView := state.environment.posixView.map change } }

variable (view : PosixView) (path : List UInt8)

def resolveIn : Attempt (ViewState Handle) PosixFailure PosixResolvedPath :=
  mapFailure .result (query (fun state => resolvePath state.stores view path))

/-- Open a node from a directory of the view. -/
def openNode (base : NodeHandle) (path : List UInt8) (directory : Bool) :
    Attempt (ViewState Handle) FacetError NodeHandle := do
  let handle ← zoom ViewState.stores (fun stores state => { state with stores })
    (openNodeFrom base path directory)
  modify (fun state => { state with opened := state.opened ++ [handle] })
  return handle

def openResolved (resolved : PosixResolvedPath) (directory : Bool) :
    Attempt (ViewState Handle) FacetError NodeHandle :=
  openNode resolved.directory resolved.relative directory

/-! ## Synthetic files -/

/-- The files of `/etc` that a view with the root `/posix` supplies itself. -/
inductive SyntheticFile
  | passwd
  | shadow
  | fstab
  deriving DecidableEq

/-- The names are compared with the path as it is spelled. -/
def syntheticFile : Option SyntheticFile :=
  if view.chrooted = false then none
  else if path = ascii "/etc/passwd" ∨ (view.cwdSyntheticEtc ∧ path = ascii "passwd") then
    some .passwd
  else if path = ascii "/etc/shadow" ∨ (view.cwdSyntheticEtc ∧ path = ascii "shadow") then
    some .shadow
  else if path = ascii "/etc/fstab" ∨ (view.cwdSyntheticEtc ∧ path = ascii "fstab") then
    some .fstab
  else none

def syntheticText : SyntheticFile → List UInt8
  | .passwd => view.virtualPasswd
  | .shadow => view.virtualShadow
  | .fstab => view.virtualFstab

/-- The spellings of the synthetic directory. -/
def isSyntheticEtc : Bool :=
  view.chrooted && (path == ascii "/etc" || (view.cwdSyntheticEtc && path == [dot]))

/-! ## Descriptors -/

/-- What `posix_open` tests of its flags. -/
structure OpenFlags where
  readOnly : Bool
  create : Bool
  truncate : Bool
  append : Bool
  deriving DecidableEq

def freeDescriptor (descriptors : List Descriptor) : Option ℕ :=
  ((descriptors.drop 3).findIdx? (fun descriptor => descriptor = .unused)).map (· + 3)

def setDescriptor (fd : ℕ) (descriptor : Descriptor) (view : PosixView) : PosixView :=
  { view with descriptors := view.descriptors.set fd descriptor }

/-- The descriptor of that number, unless it is unused. -/
def usedDescriptor (fd : Int32) : Except PosixFailure Descriptor :=
  if fd < 0 ∨ (posixDescriptorCount : ℤ) ≤ fd.toInt then .error (.errno .badf)
  else
    match view.descriptors[fd.toNatClampNeg]? with
    | none => .error (.errno .badf)
    | some .unused => .error (.errno .badf)
    | some descriptor => .ok descriptor

def posixOpen (flags : OpenFlags) : Attempt (ViewState Handle) PosixFailure ℕ := do
  ofExcept (reject (path = []) (.result .invalidArgument))
  ofExcept (reject (flags.readOnly = false ∨ flags.create ∨ flags.truncate ∨ flags.append)
    (.errno .rofs))
  let view ← currentView
  let slot ← ofOption (.errno .mfile) (freeDescriptor view.descriptors)
  match syntheticFile view path with
  | some file =>
    ofExcept (reject (file = .shadow ∧ view.admin = false) (.errno .acces))
    modify (updateView (setDescriptor slot (.memory (syntheticText view file) 0)))
    return slot
  | none =>
    let resolved ← resolveIn view path
    let handle ← mapFailure fileFailure (openResolved resolved false)
    modify (updateView (setDescriptor slot (.file handle 0)))
    return slot

def posixClose (fd : Int32) : Attempt (ViewState Handle) PosixFailure Unit := do
  let view ← currentView
  let _ ← ofExcept (usedDescriptor view fd)
  ofExcept (reject (fd < 3) (.errno .badf))
  modify (updateView (setDescriptor fd.toNatClampNeg .unused))

/-- Read a file of a store. -/
def readFile (stores : Stores) (handle : NodeHandle) (offset maximum : ℕ) :
    Except FacetError (List UInt8) :=
  match stores[handle.store]? with
  | none => .error .invalidHandle
  | some store =>
    withNode store handle.node (some false) (fun node =>
      fileRead store offset maximum node.target)

def readFailure : FacetError → PosixFailure
  | .accessDenied => .errno .acces
  | failure => .result failure

/-- `input` is what the terminal answers. -/
def posixRead (fd : Int32) (maximum : UInt32) (input : Except FacetError (List UInt8)) :
    Attempt (ViewState Handle) PosixFailure (List UInt8) := do
  let view ← currentView
  match ← ofExcept (usedDescriptor view fd) with
  | .input => mapFailure readFailure (ofExcept input)
  | .memory contents offset =>
    let data := (contents.drop offset.toNat).take maximum.toNat
    modify (updateView (setDescriptor fd.toNatClampNeg
      (.memory contents (offset + data.length.toUInt64))))
    return data
  | .file handle offset =>
    let data ← mapFailure readFailure
      (query (fun state => readFile state.stores handle offset.toNat maximum.toNat))
    modify (updateView (setDescriptor fd.toNatClampNeg
      (.file handle (offset + data.length.toUInt64))))
    return data
  | _ => ofExcept (.error (.errno .badf))

/-- `output` is what the terminal answers. -/
def posixWrite (fd : Int32) (output : Except FacetError ℕ) :
    Attempt (ViewState Handle) PosixFailure ℕ := do
  let view ← currentView
  match ← ofExcept (usedDescriptor view fd) with
  | .output => mapFailure readFailure (ofExcept output)
  | .file _ _ => ofExcept (.error (.errno .rofs))
  | _ => ofExcept (.error (.errno .badf))

inductive Whence
  | set
  | current
  | fromEnd
  | other
  deriving DecidableEq

def seekBase (offset size : UInt64) : Whence → Option Int64
  | .set => some 0
  | .current => some offset.toInt64
  | .fromEnd => some size.toInt64
  | .other => none

/-- The new offset of a synthetic file; signed sums wrap. -/
def seekMemory (base : Option Int64) (offset : Int64) : Option UInt64 :=
  let base := base.getD (-1)
  if base < 0 ∨ offset < -base ∨ base + offset < 0 then none else some (base + offset).toUInt64

/-- The new offset of a file. -/
def seekFile (base : Option Int64) (offset : Int64) : Option UInt64 := do
  let base ← base
  if (offset < 0 ∧ base < -offset) ∨ (0 < offset ∧ Int64.maxValue - offset < base) then none
  else some (base + offset).toUInt64

def nodeSize (stores : Stores) (handle : NodeHandle) : Except FacetError ℕ :=
  match stores[handle.store]? with
  | none => .error .invalidHandle
  | some store =>
    withNode store handle.node (some false) (fun node => fileSize store node.target)

def posixSeek (fd : Int32) (offset : Int64) (whence : Whence) :
    Attempt (ViewState Handle) PosixFailure UInt64 := do
  let view ← currentView
  match ← ofExcept (usedDescriptor view fd) with
  | .memory contents position =>
    let moved ← ofOption (.errno .inval)
      (seekMemory (seekBase position contents.length.toUInt64 whence) offset)
    modify (updateView (setDescriptor fd.toNatClampNeg (.memory contents moved)))
    return moved
  | .file handle position =>
    let size ← mapFailure .result (query (fun state => nodeSize state.stores handle))
    let moved ← ofOption (.errno .inval)
      (seekFile (seekBase position size.toUInt64 whence) offset)
    modify (updateView (setDescriptor fd.toNatClampNeg (.file handle moved)))
    return moved
  | _ => ofExcept (.error (.errno .spipe))

/-! ## Directories -/

/-- The mode, uid and gid that are reported for a node; those without metadata have the
defaults of their kind. -/
def reportedMetadata (stores : Stores) (handle : NodeHandle) (directory : Bool) :
    UInt32 × UInt32 × UInt32 :=
  let defaults := (if directory then 0o040755 else 0o100644, 0, 0)
  match stores[handle.store]? with
  | none => defaults
  | some store =>
    ((withNode store handle.node none (fun node => nodeMetadata node.target)).toOption).getD
      defaults

/-- A directory is tried first, then a file. -/
def openEither (resolved : PosixResolvedPath) :
    Attempt (ViewState Handle) FacetError (NodeHandle × Bool) := fun state =>
  match openResolved resolved true state with
  | (.error .notFound, state) =>
    (do let handle ← openResolved resolved false; return (handle, false)) state
  | (.error failure, state) => (.error failure, state)
  | (.ok handle, state) => (.ok (handle, true), state)

def posixStatPath : Attempt (ViewState Handle) PosixFailure (UInt32 × UInt32 × UInt32) := do
  ofExcept (reject (path = []) (.result .invalidArgument))
  let view ← currentView
  if isSyntheticEtc view path then return (0o040755, 0, 0)
  else
    match syntheticFile view path with
    | some file => return (if file = .shadow then 0o100600 else 0o100644, 0, 0)
    | none =>
      ofExcept (reject view.cwdSyntheticEtc (.errno .noent))
      let resolved ← resolveIn view path
      let (handle, directory) ← mapFailure fileFailure (openEither resolved)
      query (fun state => .ok (reportedMetadata state.stores handle directory))

/-- The first names of a directory. -/
def listNode (stores : Stores) (handle : NodeHandle) : Except FacetError (List (List UInt8)) :=
  match stores[handle.store]? with
  | none => .error .invalidHandle
  | some store =>
    withNode store handle.node (some true) (fun node =>
      (directoryList store 0 128 node.target).map (fun listing => listing.entries.map (·.name)))

/-- Add the synthetic directory unless it is there. -/
def includeEtc (names : List (List UInt8)) : List (List UInt8) :=
  if ascii "etc" ∈ names then names else names ++ [ascii "etc"]

/-- `..` of the synthetic directory, listed from the root. -/
def listParentOfEtc (view : PosixView) :
    Attempt (ViewState Handle) PosixFailure (List (List UInt8)) := do
  let handle ← mapFailure .result (openNode view.rootHandle [dot] true)
  let names ← mapFailure fileFailure (query (fun state => listNode state.stores handle))
  return includeEtc names

def posixListDirectory : Attempt (ViewState Handle) PosixFailure (List (List UInt8)) := do
  let view ← currentView
  if isSyntheticEtc view path then return etcNames
  else if view.cwdSyntheticEtc ∧ path = [dot, dot] then listParentOfEtc view
  else
    let resolved ← resolveIn view path
    let handle ← mapFailure fileFailure (openResolved resolved true)
    let names ← mapFailure fileFailure (query (fun state => listNode state.stores handle))
    let root ← query (fun state => .ok (directoryIsNamespaceRoot state.stores view handle))
    return if view.chrooted && root then includeEtc names else names

/-- Tell the environment; the view keeps what it has. -/
def cwdChanged (directory : NodeHandle) (syntheticEtc : Bool) :
    Attempt (ViewState Handle) PosixFailure Unit := fun state =>
  match syncPosixCwd state.environment (.node directory) syntheticEtc with
  | none => (.error (.result .error), state)
  | some environment => (.ok (), { state with environment })

/-- Make a directory the current one. -/
def changeTo (view : PosixView) (directory : NodeHandle) :
    Attempt (ViewState Handle) PosixFailure Unit := do
  modify (updateView (fun view => { view with cwdSyntheticEtc := false, cwdHandle := directory }))
  if view.cwdChanged then cwdChanged directory false else return

def posixChangeDirectory : Attempt (ViewState Handle) PosixFailure Unit := do
  let view ← currentView
  if isSyntheticEtc view path then
    modify (updateView (fun view => { view with cwdSyntheticEtc := true }))
    if view.cwdChanged then cwdChanged view.cwdHandle true else return
  else if view.cwdSyntheticEtc ∧ (path = [dot, dot] ∨ path = [slash]) then
    changeTo view view.rootHandle
  else
    let resolved ← resolveIn view path
    let directory ← mapFailure fileFailure (openResolved resolved true)
    changeTo view directory

def posixGetCwd : Attempt (ViewState Handle) PosixFailure (List UInt8) := do
  let view ← currentView
  if view.cwdSyntheticEtc then return ascii "/etc"
  else
    let physical ← mapFailure readFailure
      (query (fun state => nodePath state.stores view.cwdHandle))
    let root ← mapFailure .result (query (fun state => nodePath state.stores view.rootHandle))
    match pathBeneath physical root with
    | some offset => return slash :: physical.drop offset
    | none => return ascii "(unknown)"

/-! ## All calls -/

/-- A call of a view; a spawn is one of the process manager's transitions. -/
inductive PosixCall
  | open (path : List UInt8) (flags : OpenFlags)
  | close (fd : Int32)
  | read (fd : Int32) (maximum : UInt32) (input : Except FacetError (List UInt8))
  | write (fd : Int32) (output : Except FacetError ℕ)
  | seek (fd : Int32) (offset : Int64) (whence : Whence)
  | stat (path : List UInt8)
  | list (path : List UInt8)
  | changeDirectory (path : List UInt8)
  | getCwd
  | setCredentials (uid gid : UInt32)

inductive PosixReply
  | done
  | descriptor (fd : ℕ)
  | data (bytes : List UInt8)
  | written (count : ℕ)
  | offset (position : UInt64)
  | metadata (mode uid gid : UInt32)
  | names (names : List (List UInt8))
  | path (path : List UInt8)
  deriving DecidableEq

/-- The change of the identity is a method of the environment. -/
def changeCredentials (users : List FacetConfigUser) (uid gid : UInt32) :
    Attempt (ViewState Handle) PosixFailure Unit := fun state =>
  let (result, environment) := posixSetCredentials users state.environment uid gid
  (result.mapError .errno, { state with environment })

def PosixCall.perform (users : List FacetConfigUser) :
    PosixCall → Attempt (ViewState Handle) PosixFailure PosixReply
  | .open path flags => do return .descriptor (← posixOpen path flags)
  | .close fd => do posixClose fd; return .done
  | .read fd maximum input => do return .data (← posixRead fd maximum input)
  | .write fd output => do return .written (← posixWrite fd output)
  | .seek fd offset whence => do return .offset (← posixSeek fd offset whence)
  | .stat path => do let (mode, uid, gid) ← posixStatPath path; return .metadata mode uid gid
  | .list path => do return .names (← posixListDirectory path)
  | .changeDirectory path => do posixChangeDirectory path; return .done
  | .getCwd => do return .path (← posixGetCwd)
  | .setCredentials uid gid => do changeCredentials users uid gid; return .done

end Calls

end FacetOS.Posix
