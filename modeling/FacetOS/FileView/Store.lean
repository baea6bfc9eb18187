import FacetOS.Initrd.Lookup
import FacetOS.Config.Types

/-!
# Credential file stores

A credential store gives one identity its view of the boot archive.  It opens
archive nodes after searching their ancestors with that identity, supplies the
account files under `/posix/etc` itself, and remembers every node it has handed
out so that one path keeps one handle.  Allocation, export and cloning of
handles are taken to succeed.
-/

namespace FacetOS.FileView

open Initrd Paths
open Rpc (FacetError)
open Config (FacetConfigUser)

/-! ## Synthetic nodes -/

/-- The nodes that no archive supplies. -/
inductive SyntheticNode
  | etcDirectory
  | passwd
  | shadow
  | fstab
  deriving DecidableEq, Repr

def SyntheticNode.path : SyntheticNode → List UInt8
  | .etcDirectory => ascii "/posix/etc"
  | .passwd => ascii "/posix/etc/passwd"
  | .shadow => ascii "/posix/etc/shadow"
  | .fstab => ascii "/posix/etc/fstab"

def syntheticForPath (path : List UInt8) (directory : Bool) : Option SyntheticNode :=
  if directory && path == ascii "/posix/etc" then some .etcDirectory
  else if !directory && path == ascii "/posix/etc/passwd" then some .passwd
  else if !directory && path == ascii "/posix/etc/shadow" then some .shadow
  else if !directory && path == ascii "/posix/etc/fstab" then some .fstab
  else none

def defaultPasswd : List UInt8 :=
  ascii "root:x:0:0:root:/home/root:/bin/sh\nuser:x:1000:1000:user:/home/user:/bin/sh\n"

def defaultShadow : List UInt8 :=
  ascii "root:$5$facet$j7FgoXidvJl10CTaW0nguGP3ZnvKnqS3/IHmDVliPQ9:::::::\n"
    ++ ascii "user:$5$facet$j7FgoXidvJl10CTaW0nguGP3ZnvKnqS3/IHmDVliPQ9:::::::\n"

def defaultFstab : List UInt8 := ascii "initrd / initrd ro 0 0\n"

/-! ## The store -/

/-- What a node of a credential store stands for. -/
inductive NodeTarget
  | backing (entry : InitrdEntry)
  | synthetic (node : SyntheticNode)
  deriving DecidableEq

def NodeTarget.path : NodeTarget → List UInt8
  | .backing entry => entry.path
  | .synthetic node => node.path

structure CredentialNode where
  target : NodeTarget
  directory : Bool
  handle : ℕ
  deriving DecidableEq

def CredentialNode.path (node : CredentialNode) : List UInt8 := node.target.path

structure Credentials where
  uid : UInt32
  gid : UInt32
  admin : Bool
  deriving DecidableEq

/-- `nodes` lists the nodes handed out so far, the newest first. -/
structure CredentialFileStore where
  initrd : FacetInitrd
  credentials : Credentials
  virtualPasswd : List UInt8
  virtualShadow : List UInt8
  nodes : List CredentialNode

variable (store : CredentialFileStore)

def syntheticContents : SyntheticNode → Option (List UInt8)
  | .etcDirectory => none
  | .passwd => some store.virtualPasswd
  | .shadow => some store.virtualShadow
  | .fstab => some defaultFstab

/-! ## Access checks -/

def checkAccess (credentials : Credentials) (entry : InitrdEntry) (requested : UInt32) :
    Except FacetError Unit :=
  if modeAllows entry.mode entry.uid entry.gid credentials.uid credentials.gid
      credentials.admin requested then .ok ()
  else .error .accessDenied

/-- Open one directory on the way and ask for search permission. -/
def checkSearchStep (initrd : FacetInitrd) (credentials : Credentials) (path : List UInt8) :
    Except FacetError Unit :=
  match facetInitrdOpenNode initrd [slash] path true with
  | .error failure => .error failure
  | .ok directory => checkAccess credentials directory 1

/-- The directories a search visits: the root, the proper ancestors and, for a
directory, the target. -/
def searchedPaths (path : List UInt8) (includeTarget : Bool) : List (List UInt8) :=
  [slash] :: ancestorPaths path ++ (if includeTarget ∧ 1 < path.length then [path] else [])

def checkSearch (initrd : FacetInitrd) (credentials : Credentials) (path : List UInt8)
    (includeTarget : Bool) : Except FacetError Unit :=
  if path.head? ≠ some slash then .error .invalidArgument
  else checkAll (checkSearchStep initrd credentials) (searchedPaths path includeTarget)

/-! ## Opening -/

/-- `wrap_node`: one handle for each path and kind. -/
def wrapNode (target : NodeTarget) (directory : Bool) : ℕ × CredentialFileStore :=
  match store.nodes.find? (fun node => node.directory == directory && node.path == target.path) with
  | some node => (node.handle, store)
  | none =>
    let node : CredentialNode := ⟨target, directory, store.nodes.length⟩
    (node.handle, { store with nodes := node :: store.nodes })

/-- The lookup, search and registration that both ways of opening end with. -/
def openArchived (path : List UInt8) (directory : Bool) :
    Except FacetError ℕ × CredentialFileStore :=
  match facetInitrdOpenNode store.initrd [slash] path directory with
  | .error failure => (.error failure, store)
  | .ok opened =>
    match checkSearch store.initrd store.credentials opened.path directory with
    | .error failure => (.error failure, store)
    | .ok () =>
      let (handle, store) := wrapNode store (.backing opened) directory
      (.ok handle, store)

/-- Open a synthetic node without any check, anything else from the archive. -/
def openNode (requested path : List UInt8) (directory : Bool) :
    Except FacetError ℕ × CredentialFileStore :=
  match syntheticForPath requested directory with
  | some node =>
    let (handle, store) := wrapNode store (.synthetic node) directory
    (.ok handle, store)
  | none => openArchived store path directory

/-- `store_open`: the synthetic names are compared with the path as a C string
and without normalising it. -/
def storeOpen (path : List UInt8) (directory : Bool) : Except FacetError ℕ × CredentialFileStore :=
  if path = [] then (.error .invalidArgument, store)
  else openNode store (cString path) path directory

/-- One component of the loop in `directory_open`, which rewrites its buffer in
place; the write position never passes the position being read. -/
def candidateStep (buffer part : List UInt8) : List UInt8 :=
  if part = [dot] then buffer
  else if part = [dot, dot] then retreat slash 1 buffer
  else
    (if buffer = [] ∨ buffer.getLast? ≠ some slash then buffer ++ [slash] else buffer) ++ part

/-- The normalised candidate path, read as a C string. -/
def normalizeCandidate (candidate : List UInt8) : List UInt8 :=
  let written := (components slash (cString candidate)).foldl candidateStep []
  if written = [] then [slash] else written

def candidatePath (base path : List UInt8) : List UInt8 :=
  if path.head? = some slash then path else base ++ slash :: path

/-- `directory_open` on a directory node with path `base`. -/
def directoryOpen (base path : List UInt8) (directory : Bool) :
    Except FacetError ℕ × CredentialFileStore :=
  if path = [] then (.error .invalidArgument, store)
  else
    let candidate := normalizeCandidate (candidatePath base path)
    openNode store candidate candidate directory

/-! ## Reading -/

def fileSize : NodeTarget → Except FacetError ℕ
  | .synthetic node =>
    match syntheticContents store node with
    | some contents => .ok contents.length
    | none => .error .invalidArgument
  | .backing entry => facetInitrdNodeSize entry

def fileRead (offset maximum : ℕ) : NodeTarget → Except FacetError (List UInt8)
  | .synthetic node =>
    match syntheticContents store node with
    | none => .error .invalidArgument
    | some contents =>
      if node = .shadow ∧ store.credentials.admin = false then .error .accessDenied
      else if contents.length ≤ offset then .ok []
      else .ok ((contents.drop offset).take (min (contents.length - offset) maximum))
  | .backing entry =>
    match checkAccess store.credentials entry 4 with
    | .error failure => .error failure
    | .ok () => facetInitrdNodeRead entry offset maximum

def etcNames : List (List UInt8) := [ascii "fstab", ascii "passwd", ascii "shadow"]

def listEtc (cursor maximum : ℕ) : Listing :=
  if etcNames.length ≤ cursor ∨ maximum = 0 then ⟨[], cursor, etcNames.length ≤ cursor⟩
  else
    let names := (etcNames.drop cursor).take maximum
    ⟨names.map (fun name => ⟨name, .file⟩), cursor + names.length,
      cursor + names.length = etcNames.length⟩

/-- The listing of `/posix` also shows the synthetic directory when it fits. -/
def directoryList (cursor maximum : ℕ) : NodeTarget → Except FacetError Listing
  | .synthetic .etcDirectory => .ok (listEtc cursor maximum)
  | .synthetic _ => .error .invalidArgument
  | .backing entry =>
    match checkAccess store.credentials entry 5 with
    | .error failure => .error failure
    | .ok () =>
      (facetInitrdNodeList store.initrd entry cursor maximum).map (fun listing =>
        if cursor ≠ 0 ∨ listing.finished = false ∨ maximum ≤ listing.entries.length
            ∨ entry.path ≠ ascii "/posix" then listing
        else { listing with entries := listing.entries ++ [⟨ascii "etc", .directory⟩] })

def nodeMetadata : NodeTarget → Except FacetError (UInt32 × UInt32 × UInt32)
  | .synthetic _ => .error .noInterface
  | .backing entry => .ok (entry.mode, entry.uid, entry.gid)

end FacetOS.FileView
