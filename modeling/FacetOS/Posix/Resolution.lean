import FacetOS.Posix.View

/-!
# Paths of a POSIX view

A view resolves absolute paths from its root and relative ones from its current
directory, and never lets `..` climb above the root: the components of the path are
put on top of those of the directory, and the result is opened from the root.  Only
a current directory that does not lie below the root is used as it is.
-/

namespace FacetOS.Posix

open Process Paths Initrd
open Rpc (FacetError)

/-- Where the part of the path below the root begins. -/
def pathBeneath (path root : List UInt8) : Option ℕ :=
  if path.length < root.length then none
  else if root = [slash] ∧ path.head? = some slash then some 1
  else if path.take root.length ≠ root then none
  else if path.length = root.length then some root.length
  else if path[root.length]? ≠ some slash then none
  else some (root.length + 1)

/-- Put the components of the input on the buffer. -/
def normalizeComponents (output input : List UInt8) : List UInt8 :=
  (components slash input).foldl (normalizeStep slash dot 0) output

def normalizeBeneathRoot (base path : List UInt8) : List UInt8 :=
  let normalized := normalizeComponents (normalizeComponents [] base) path
  if normalized = [] then [dot] else normalized

/-- `PosixResolvedPath` -/
structure PosixResolvedPath where
  directory : NodeHandle
  relative : List UInt8
  rootRelative : Bool

/-- What a path is put on top of, if it is resolved from the root. -/
def resolutionBase (stores : Stores) (view : PosixView) (path : List UInt8) :
    Option (List UInt8) :=
  if path.head? = some slash then some []
  else if view.cwdSyntheticEtc then some (ascii "etc")
  else
    match nodePath stores view.rootHandle, nodePath stores view.cwdHandle with
    | .ok root, .ok cwd => (pathBeneath cwd root).map (cwd.drop ·)
    | _, _ => none

def resolvePath (stores : Stores) (view : PosixView) (path : List UInt8) :
    Except FacetError PosixResolvedPath :=
  if path = [] then .error .invalidArgument
  else
    match resolutionBase stores view path with
    | some base => .ok ⟨view.rootHandle, normalizeBeneathRoot base path, true⟩
    | none => .ok ⟨view.cwdHandle, path, false⟩

/-- The path that a spawn passes on. -/
def resolveSpawnPath (stores : Stores) (view : PosixView) (path : List UInt8) :
    Except FacetError (List UInt8) :=
  (resolvePath stores view path).map (fun resolved =>
    if resolved.rootRelative then
      if resolved.relative = [dot] then [slash] else slash :: resolved.relative
    else path)

/-- `directory_is_namespace_root` -/
def directoryIsNamespaceRoot (stores : Stores) (view : PosixView) (directory : NodeHandle) : Bool :=
  match nodePath stores directory, nodePath stores view.rootHandle with
  | .ok path, .ok root => path == root
  | _, _ => false

end FacetOS.Posix
