import FacetOS.FileView.Operations
import FacetOS.Core.Attempts

/-!
# Directories that processes hold

The processes of a domain share credential stores: there is one for each identity,
and a node is named by its store and its handle there.  A process may also be given
a directory object of some client, of which nothing is known but its answers.
Handles can always be cloned here, and a store is kept after its last process.
-/

namespace FacetOS.Process

open FileView Initrd Attempts
open Rpc (FacetError)
open Config (FacetConfigUser)

/-- The credential stores of one archive, in the order of their creation. -/
abbrev Stores : Type := List CredentialFileStore

structure NodeHandle where
  store : ℕ
  node : ℕ
  deriving DecidableEq

/-- What a directory object of a client answers: its path, and the path of a file opened
from it. -/
structure ClientDirectory where
  path : Except FacetError (List UInt8)
  openFile : List UInt8 → Except FacetError (List UInt8)

inductive DirectoryHandle
  | node (handle : NodeHandle)
  | client (directory : ClientDirectory)

def DirectoryHandle.node? : DirectoryHandle → Option NodeHandle
  | .node handle => some handle
  | .client _ => none

/-! ## Opening -/

/-- Open something in the store of that number. -/
def inStore (index : ℕ) (action : CredentialFileStore → Except FacetError ℕ × CredentialFileStore) :
    Attempt Stores FacetError NodeHandle := fun stores =>
  match stores[index]? with
  | none => (.error .invalidHandle, stores)
  | some store => ((action store).1.map (⟨index, ·⟩), stores.set index (action store).2)

def storeOpenIn (index : ℕ) (path : List UInt8) (directory : Bool) :
    Attempt Stores FacetError NodeHandle :=
  inStore index (fun store => storeOpen store path directory)

def openNodeFrom (base : NodeHandle) (path : List UInt8) (directory : Bool) :
    Attempt Stores FacetError NodeHandle :=
  inStore base.store (fun store => openFrom store base.node path directory)

def nodePath (stores : Stores) (handle : NodeHandle) : Except FacetError (List UInt8) :=
  match stores[handle.store]? with
  | none => .error .invalidHandle
  | some store => withNode store handle.node none (fun node => .ok node.path)

def directoryPath (stores : Stores) : DirectoryHandle → Except FacetError (List UInt8)
  | .node handle => nodePath stores handle
  | .client directory => directory.path

/-- Open a file from a directory and ask it for its path. -/
def openedFilePath (path : List UInt8) :
    DirectoryHandle → Attempt Stores FacetError (List UInt8)
  | .node handle => do
      let file ← openNodeFrom handle path false
      query (nodePath · file)
  | .client directory => ofExcept (directory.openFile path)

/-- The store of an identity, which is created only once. -/
def dominit0CredentialFileStoreCreate (initrd : FacetInitrd) (users : List FacetConfigUser)
    (credentials : Credentials) : Attempt Stores Unit ℕ := fun stores =>
  match stores.findIdx? (fun store => store.credentials = credentials) with
  | some index => (.ok index, stores)
  | none =>
    match credentialFileStoreCreate initrd credentials users with
    | none => (.error (), stores)
    | some store => (.ok stores.length, stores ++ [store])

/-! ## Stores only gain nodes -/

/-- Every store stays where it is and only gains nodes. -/
def Grows (before after : Stores) : Prop :=
  ∀ (index : ℕ) (store : CredentialFileStore), before[index]? = some store →
    ∃ later, after[index]? = some later ∧ Extends store later

instance : Std.Refl Grows where
  refl _ _ store hstore := ⟨store, hstore, Extends.refl store⟩

instance : IsTrans Stores Grows where
  trans _ _ _ hleft hright index store hstore := by
    obtain ⟨middle, hmiddle, hextends⟩ := hleft index store hstore
    obtain ⟨later, hlater, hmore⟩ := hright index middle hmiddle
    exact ⟨later, hlater, hextends.trans hmore⟩

theorem grows_set {stores : Stores} {index : ℕ} {store later : CredentialFileStore}
    (hstore : stores[index]? = some store) (hextends : Extends store later) :
    Grows stores (stores.set index later) := by
  intro other found hfound
  by_cases heq : index = other
  · subst heq
    rw [hstore, Option.some.injEq] at hfound
    subst hfound
    exact ⟨later, List.getElem?_set_self (List.getElem?_eq_some_iff.mp hstore).1, hextends⟩
  · exact ⟨found, by rw [List.getElem?_set_ne heq, hfound], Extends.refl found⟩

variable {action : CredentialFileStore → Except FacetError ℕ × CredentialFileStore}

theorem moves_inStore {index : ℕ}

    (haction : ∀ store, Extends store (action store).2) : Moves Grows (inStore index action) := by
  intro stores
  unfold inStore
  cases hstore : stores[index]? with
  | none => exact Std.Refl.refl stores
  | some store => exact grows_set hstore (haction store)

@[simp]
theorem moves_storeOpenIn (index : ℕ) (path : List UInt8) (directory : Bool) :
    Moves Grows (storeOpenIn index path directory) :=
  moves_inStore (fun store =>
    storeOpen_of_opens (.refl store) (openNode_extends store) path directory)

@[simp]
theorem moves_openNodeFrom (base : NodeHandle) (path : List UInt8) (directory : Bool) :
    Moves Grows (openNodeFrom base path directory) :=
  moves_inStore (fun store =>
    openFrom_of_opens (.refl store) (openNode_extends store) base.node path directory)

@[simp]
theorem moves_openedFilePath (path : List UInt8) (handle : DirectoryHandle) :
    Moves Grows (openedFilePath path handle) := by
  cases handle with
  | node handle => exact (moves_openNodeFrom handle path false).bind (by simp)
  | client directory => exact moves_ofExcept _

@[simp]
theorem moves_dominit0CredentialFileStoreCreate (initrd : FacetInitrd)
    (users : List FacetConfigUser) (credentials : Credentials) :
    Moves Grows (dominit0CredentialFileStoreCreate initrd users credentials) := by
  intro stores
  unfold dominit0CredentialFileStoreCreate
  split
  · exact Std.Refl.refl stores
  · split
    · exact Std.Refl.refl stores
    · intro index store hstore
      exact ⟨store, List.getElem?_append_left (List.getElem?_eq_some_iff.mp hstore).1 ▸ hstore,
        Extends.refl store⟩

/-! ## What is returned -/

/-- An opened node belongs to the store it was opened in. -/
theorem inStore_eq_ok {index : ℕ}

    {handle : NodeHandle} {before after : Stores}
    (hrun : inStore index action before = (.ok handle, after)) :
    ∃ store, before[index]? = some store ∧ (action store).1 = .ok handle.node
      ∧ handle.store = index ∧ after = before.set index (action store).2 := by
  unfold inStore at hrun
  cases hstore : before[index]? with
  | none => simp [hstore] at hrun
  | some store =>
    rw [hstore] at hrun
    obtain ⟨hresult, hafter⟩ := Prod.mk.inj hrun
    cases haction : (action store).1 with
    | error failure =>
      rw [haction] at hresult
      cases hresult
    | ok node =>
      rw [haction] at hresult
      obtain rfl := Except.ok.inj hresult
      exact ⟨store, rfl, haction, rfl, hafter.symm⟩

/-- The store of an identity has that identity. -/
theorem dominit0CredentialFileStoreCreate_eq_ok {initrd : FacetInitrd}
    {users : List FacetConfigUser} {credentials : Credentials} {index : ℕ}
    {before after : Stores}
    (hrun : dominit0CredentialFileStoreCreate initrd users credentials before
      = (.ok index, after)) :
    ∃ store, after[index]? = some store ∧ store.credentials = credentials := by
  unfold dominit0CredentialFileStoreCreate at hrun
  cases hfound : before.findIdx? (fun store => store.credentials = credentials) with
  | some found =>
    rw [hfound] at hrun
    obtain ⟨hindex, rfl⟩ := Prod.mk.inj hrun
    obtain rfl := Except.ok.inj hindex
    obtain ⟨hbound, hsame, -⟩ := List.findIdx?_eq_some_iff_getElem.mp hfound
    exact ⟨before[found], List.getElem?_eq_getElem hbound, by simpa using hsame⟩
  | none =>
    rw [hfound] at hrun
    cases hcreate : credentialFileStoreCreate initrd credentials users with
    | none => simp [hcreate] at hrun
    | some store =>
      rw [hcreate] at hrun
      obtain ⟨hindex, rfl⟩ := Prod.mk.inj hrun
      obtain rfl := Except.ok.inj hindex
      refine ⟨store, List.getElem?_concat_length, ?_⟩
      obtain ⟨texts, -, rfl⟩ := Option.map_eq_some_iff.mp hcreate
      rfl

end FacetOS.Process
