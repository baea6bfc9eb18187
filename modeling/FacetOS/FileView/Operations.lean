import FacetOS.FileView.Store
import FacetOS.Core.Runs

/-!
# Creating and using a credential store

The account files are rendered once, when the store is created; after that the
store only ever gains nodes.  An operation names the store itself or a handle
obtained from an earlier operation, and a run is any sequence of operations.
-/

namespace FacetOS.FileView

open Initrd Paths
open Rpc (FacetError)
open Config (FacetConfigUser)

/-! ## The account files -/

/-- The texts that rendering reads of one user.  A text that is missing is a
null pointer, whose length cannot be taken. -/
structure UserTexts where
  name : List UInt8
  home : List UInt8
  shell : List UInt8
  hash : List UInt8
  uid : UInt32
  gid : UInt32

def userTexts (user : FacetConfigUser) : Option UserTexts := do
  let name ← user.name
  let home ← user.homePath
  let shell ← user.posixShell
  let hash ← user.passwordHash
  return ⟨name, home, shell, hash, user.uid.getD 0, user.gid.getD 0⟩

def passwdLine (user : UserTexts) : List UInt8 :=
  user.name ++ ascii ":x:" ++ decimal user.uid.toNat ++ ascii ":" ++ decimal user.gid.toNat
    ++ ascii ":" ++ user.name ++ ascii ":" ++ user.home ++ ascii ":" ++ user.shell ++ ascii "\n"

def shadowLine (user : UserTexts) : List UInt8 :=
  user.name ++ ascii ":" ++ user.hash ++ ascii ":::::::\n"

/-- The buffer sizes computed before printing. -/
def passwdSize (users : List UserTexts) : ℕ :=
  1 + (users.map (fun user =>
    user.name.length + user.home.length + user.shell.length + 48)).sum

def shadowSize (users : List UserTexts) : ℕ :=
  1 + (users.map (fun user => user.name.length + user.hash.length + 16)).sum

/-- `snprintf` at the end of a buffer; a line that does not fit is refused. -/
def printLine (size : ℕ) (buffer line : List UInt8) : Option (List UInt8) :=
  if size - buffer.length ≤ line.length then none else some (buffer ++ line)

def printUsers (passwdRoom shadowRoom : ℕ) :
    List UserTexts → List UInt8 → List UInt8 → Option (List UInt8 × List UInt8)
  | [], passwd, shadow => some (passwd, shadow)
  | user :: users, passwd, shadow => do
      let passwd ← printLine passwdRoom passwd (passwdLine user)
      let shadow ← printLine shadowRoom shadow (shadowLine user)
      printUsers passwdRoom shadowRoom users passwd shadow

def renderVirtualCredentials (users : List FacetConfigUser) :
    Option (List UInt8 × List UInt8) :=
  if users = [] then some (defaultPasswd, defaultShadow)
  else do
    let texts ← users.mapM userTexts
    printUsers (passwdSize texts) (shadowSize texts) texts [] []

def credentialFileStoreCreate (initrd : FacetInitrd) (credentials : Credentials)
    (users : List FacetConfigUser) : Option CredentialFileStore :=
  (renderVirtualCredentials users).map (fun (passwd, shadow) =>
    ⟨initrd, credentials, passwd, shadow, []⟩)

/-! ## Operations -/

inductive Operation
  | storeOpenFile (path : List UInt8)
  | storeOpenDirectory (path : List UInt8)
  | directoryOpenFile (directory : ℕ) (path : List UInt8)
  | directoryOpenDirectory (directory : ℕ) (path : List UInt8)
  | list (directory cursor maximum : ℕ)
  | getSize (file : ℕ)
  | readAt (file offset maximum : ℕ)
  | writeAt (file offset : ℕ) (data : List UInt8)
  | getPath (node : ℕ)
  | getMetadata (node : ℕ)

inductive Reply
  | opened (handle : ℕ)
  | listed (listing : Listing)
  | size (bytes : ℕ)
  | data (bytes : List UInt8)
  | path (path : List UInt8)
  | metadata (mode uid gid : UInt32)
  deriving DecidableEq

variable (store : CredentialFileStore)

/-- Answer with the node behind a handle, if it exports the wanted kind of
interface; no kind means the interface that every node exports. -/
def withNode {α : Type} (handle : ℕ) (kind : Option Bool)
    (answer : CredentialNode → Except FacetError α) : Except FacetError α :=
  match store.nodes.find? (fun node =>
      node.handle == handle && kind.all (fun directory => node.directory == directory)) with
  | none => .error .invalidHandle
  | some node => answer node

/-- Answer a request for a handle. -/
def openReply (opened : Except FacetError ℕ × CredentialFileStore) :
    Except FacetError Reply × CredentialFileStore :=
  (opened.1.map .opened, opened.2)

/-- Open a path relative to the directory node behind a handle. -/
def openFrom (handle : ℕ) (path : List UInt8) (directory : Bool) :
    Except FacetError ℕ × CredentialFileStore :=
  match withNode store handle (some true) (fun node => .ok node.path) with
  | .error failure => (.error failure, store)
  | .ok base => directoryOpen store base path directory

/-- What an operation that opens nothing answers. -/
def inspect : Operation → Except FacetError Reply
  | .list handle cursor maximum =>
    withNode store handle (some true) (fun node =>
      (directoryList store cursor maximum node.target).map .listed)
  | .getSize handle =>
    withNode store handle (some false) (fun node =>
      (fileSize store node.target).map .size)
  | .readAt handle offset maximum =>
    withNode store handle (some false) (fun node =>
      (fileRead store offset maximum node.target).map .data)
  | .writeAt handle _ _ => withNode store handle (some false) (fun _ => .error .notSupported)
  | .getPath handle => withNode store handle none (fun node => .ok (.path node.path))
  | .getMetadata handle =>
    withNode store handle none (fun node =>
      (nodeMetadata node.target).map (fun (mode, uid, gid) => .metadata mode uid gid))
  | _ => .error .noSuchMethod

def perform (operation : Operation) : Except FacetError Reply × CredentialFileStore :=
  match operation with
  | .storeOpenFile path => openReply (storeOpen store path false)
  | .storeOpenDirectory path => openReply (storeOpen store path true)
  | .directoryOpenFile handle path => openReply (openFrom store handle path false)
  | .directoryOpenDirectory handle path => openReply (openFrom store handle path true)
  | _ => (inspect store operation, store)

/-! ## What operations leave alone -/

/-- Operations only ever add nodes. -/
structure Extends (before after : CredentialFileStore) : Prop where
  initrd : after.initrd = before.initrd
  credentials : after.credentials = before.credentials
  passwd : after.virtualPasswd = before.virtualPasswd
  shadow : after.virtualShadow = before.virtualShadow
  nodes : before.nodes <:+ after.nodes

theorem Extends.refl : Extends store store :=
  ⟨rfl, rfl, rfl, rfl, List.suffix_refl _⟩

theorem Extends.trans {first second third : CredentialFileStore} (hleft : Extends first second)
    (hright : Extends second third) : Extends first third :=
  ⟨hright.initrd.trans hleft.initrd, hright.credentials.trans hleft.credentials,
    hright.passwd.trans hleft.passwd, hright.shadow.trans hleft.shadow,
    hleft.nodes.trans hright.nodes⟩

theorem wrapNode_extends (target : NodeTarget) (directory : Bool) :
    Extends store (wrapNode store target directory).2 := by
  unfold wrapNode
  split
  · exact Extends.refl store
  · exact ⟨rfl, rfl, rfl, rfl, List.suffix_cons _ _⟩

theorem openArchived_extends (path : List UInt8)
    (directory : Bool) : Extends store (openArchived store path directory).2 := by
  unfold openArchived
  split
  · exact Extends.refl store
  · split
    · exact Extends.refl store
    · exact wrapNode_extends store _ directory

theorem openNode_extends (name path : List UInt8)
    (directory : Bool) : Extends store (openNode store name path directory).2 := by
  unfold openNode
  split
  · exact wrapNode_extends store _ directory
  · exact openArchived_extends store path directory

section Opens

variable {store : CredentialFileStore} {property : CredentialFileStore → Prop}
  (hstore : property store)
  (hopen : ∀ name path directory, property (openNode store name path directory).2)
include hstore hopen

theorem storeOpen_of_opens (path : List UInt8) (directory : Bool) :
    property (storeOpen store path directory).2 := by
  unfold storeOpen
  split
  · exact hstore
  · exact hopen _ _ directory

theorem openFrom_of_opens (handle : ℕ) (path : List UInt8) (directory : Bool) :
    property (openFrom store handle path directory).2 := by
  unfold openFrom directoryOpen
  split
  · exact hstore
  · split
    · exact hstore
    · exact hopen _ _ directory

/-- An operation leaves the store alone or opens one node in it. -/
theorem perform_of_opens (operation : Operation) : property (perform store operation).2 := by
  cases operation with
  | storeOpenFile path => exact storeOpen_of_opens hstore hopen path false
  | storeOpenDirectory path => exact storeOpen_of_opens hstore hopen path true
  | directoryOpenFile handle path => exact openFrom_of_opens hstore hopen handle path false
  | directoryOpenDirectory handle path => exact openFrom_of_opens hstore hopen handle path true
  | _ => exact hstore

end Opens

/-- The results of a sequence of operations and the store it leaves. -/
def performAll (store : CredentialFileStore) (operations : List Operation) :
    List (Except FacetError Reply) × CredentialFileStore :=
  Runs.outputs perform store operations

theorem performAll_extends (store : CredentialFileStore) (operations : List Operation) :
    Extends store (performAll store operations).2 :=
  Runs.invariant_outputs (fun state operation hstate =>
    hstate.trans (perform_of_opens (Extends.refl state) (openNode_extends state) operation))
    (Extends.refl store) operations

end FacetOS.FileView
