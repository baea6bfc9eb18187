import FacetOS.Process.Directories

/-!
# POSIX views

A POSIX view is what a process sees of the system through `IPOSIXView`: a root, a
current directory and a table of descriptors over the credential store of the
process.  `/etc` is not an archive directory under a root of `/posix`; the view
supplies its three files itself and remembers in a flag when it is the current
directory.
-/

namespace FacetOS.Posix

open Process FileView
open Rpc (FacetError)

inductive Descriptor
  | unused
  | input
  | output
  | file (handle : NodeHandle) (offset : UInt64)
  | memory (contents : List UInt8) (offset : UInt64)
  deriving DecidableEq

/-- `POSIX_DESCRIPTOR_COUNT` -/
def posixDescriptorCount : ℕ := 64

/-- `Dominit0PosixView`.  The last four fields tell whether the callbacks of the process,
the callback for the current directory, the lifecycle and the page allocator are bound. -/
structure PosixView where
  cwdHandle : NodeHandle
  rootHandle : NodeHandle
  chrooted : Bool
  cwdSyntheticEtc : Bool
  virtualPasswd : List UInt8
  virtualShadow : List UInt8
  virtualFstab : List UInt8
  domainId : ℕ
  pid : Int32
  admin : Bool
  descriptors : List Descriptor
  controlled : Bool
  cwdChanged : Bool
  lifecycle : Bool
  pageAllocator : Bool
  deriving DecidableEq

/-- Whether a directory reports `/posix` as its path. -/
def isPosixRoot : Except FacetError (List UInt8) → Bool
  | .ok path => path == ascii "/posix"
  | .error _ => false

/-- `path` is what the directory answers when it is asked for its path. -/
def dominit0PosixViewCreate (cwd : NodeHandle) (path : Except FacetError (List UInt8)) :
    PosixView where
  cwdHandle := cwd
  rootHandle := cwd
  chrooted := isPosixRoot path
  cwdSyntheticEtc := false
  virtualPasswd := defaultPasswd
  virtualShadow := defaultShadow
  virtualFstab := defaultFstab
  domainId := 0
  pid := 0
  admin := false
  descriptors := [.input, .output, .output]
    ++ List.replicate (posixDescriptorCount - 3) Descriptor.unused
  controlled := false
  cwdChanged := false
  lifecycle := false
  pageAllocator := false

variable (view : PosixView)

def dominit0PosixViewSetCredentialFiles (passwd shadow fstab : List UInt8) : PosixView :=
  { view with virtualPasswd := passwd, virtualShadow := shadow, virtualFstab := fstab }

/-- The current directory stays where it is. -/
def dominit0PosixViewSetRoot (root : NodeHandle)
    (path : Except FacetError (List UInt8)) : Option PosixView :=
  match path with
  | .error _ => none
  | .ok path => some { view with rootHandle := root, chrooted := path == ascii "/posix" }

def dominit0PosixViewBindCwdSync (syntheticEtc : Bool) : Option PosixView :=
  if view.cwdChanged then none
  else some { view with cwdChanged := true, cwdSyntheticEtc := syntheticEtc }

def dominit0PosixViewBindProcessControl (domainId : ℕ) (pid : Int32) (admin : Bool) : PosixView :=
  { view with domainId := domainId, pid := pid, admin := admin, controlled := true }

def dominit0PosixViewBindLifecycle : Option PosixView :=
  if view.lifecycle then none else some { view with lifecycle := true }

def dominit0PosixViewBindPageAllocator : Option PosixView :=
  if view.pageAllocator then none else some { view with pageAllocator := true }

/-- The errors that the view's methods report beside their result. -/
inductive Errno
  | perm
  | noent
  | io
  | badf
  | again
  | nomem
  | acces
  | inval
  | mfile
  | spipe
  | rofs
  | nosys
  | child
  deriving DecidableEq, Repr

end FacetOS.Posix
