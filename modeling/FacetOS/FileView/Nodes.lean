import FacetOS.FileView.Existence
import FacetOS.FileView.Candidate

/-!
# The nodes of a store

Along every run a store keeps one node for each path and kind, under a handle of
its own, and each node stands for what its path names.  A handle therefore
designates one archive entry or one synthetic node.
-/

namespace FacetOS.FileView

open Initrd Paths
open Rpc (FacetError)
open Config (FacetConfigUser)

/-! ## Sound stores -/

/-- The target is what the archive or the list of synthetic nodes has under its
path. -/
def Stands (initrd : FacetInitrd) (directory : Bool) : NodeTarget → Prop
  | .backing entry =>
    findEntry initrd entry.path directory = some entry ∧ CanonicalPath entry.path
  | .synthetic node => syntheticForPath node.path directory = some node

structure SoundStore (store : CredentialFileStore) : Prop where
  bounded : ∀ node ∈ store.nodes, node.handle < store.nodes.length
  distinct : store.nodes.Pairwise (fun later earlier => later.handle ≠ earlier.handle)
  stands : ∀ node ∈ store.nodes, Stands store.initrd node.directory node.target

/-- The node that the store already has for a path and kind. -/
def registered (store : CredentialFileStore) (path : List UInt8) (directory : Bool) :
    Option CredentialNode :=
  store.nodes.find? (fun node => node.directory == directory && node.path == path)

variable {store : CredentialFileStore} {directory : Bool} {path : List UInt8}

theorem registered_some {node : CredentialNode}
    (hnode : registered store path directory = some node) :
    node ∈ store.nodes ∧ node.directory = directory ∧ node.path = path := by
  have hmatch := List.find?_some hnode
  simp only [Bool.and_eq_true, beq_iff_eq] at hmatch
  exact ⟨List.mem_of_find?_eq_some hnode, hmatch⟩

theorem wrapNode_eq (store : CredentialFileStore) (target : NodeTarget) (directory : Bool) :
    wrapNode store target directory
      = match registered store target.path directory with
        | some node => (node.handle, store)
        | none => (store.nodes.length,
            { store with nodes := ⟨target, directory, store.nodes.length⟩ :: store.nodes }) :=
  rfl

theorem SoundStore.wrapNode (hsound : SoundStore store) {target : NodeTarget}
    (hstands : Stands store.initrd directory target) :
    SoundStore (wrapNode store target directory).2 := by
  rw [wrapNode_eq]
  cases registered store target.path directory with
  | some node => exact hsound
  | none =>
    refine ⟨?_, ?_, ?_⟩
    · intro node hnode
      rw [List.length_cons]
      cases List.mem_cons.mp hnode with
      | inl hnew => simp [hnew]
      | inr hold => exact Nat.lt_succ_of_lt (hsound.bounded node hold)
    · exact List.pairwise_cons.mpr
        ⟨fun node hnode => (hsound.bounded node hnode).ne', hsound.distinct⟩
    · intro node hnode
      cases List.mem_cons.mp hnode with
      | inl hnew => rwa [hnew]
      | inr hold => exact hsound.stands node hold

theorem stands_of_open {initrd : FacetInitrd} {entry : InitrdEntry}
    (hopen : facetInitrdOpenNode initrd [slash] path directory = .ok entry) :
    Stands initrd directory (.backing entry) := by
  obtain ⟨-, -, -, hfind⟩ := facetInitrdOpenNode_ok hopen
  exact ⟨hfind, canonicalPath_of_open hopen⟩

/-- A synthetic node is opened under its own path only. -/
theorem syntheticForPath_some {node : SyntheticNode}
    (hnode : syntheticForPath path directory = some node) :
    path = node.path ∧ directory = (node == .etcDirectory) := by
  unfold syntheticForPath at hnode
  iterate 4
    split at hnode
    · rename_i hmatch
      cases hnode
      simp only [Bool.and_eq_true, Bool.not_eq_true', beq_iff_eq] at hmatch
      exact ⟨hmatch.2, hmatch.1⟩
  contradiction

theorem stands_of_synthetic (initrd : FacetInitrd) {node : SyntheticNode}
    (hnode : syntheticForPath path directory = some node) :
    Stands initrd directory (.synthetic node) := by
  rw [Stands, ← (syntheticForPath_some hnode).1]
  exact hnode

theorem SoundStore.openArchived (hsound : SoundStore store) (path : List UInt8) (directory : Bool) :
    SoundStore (openArchived store path directory).2 := by
  unfold FileView.openArchived
  cases hopen : facetInitrdOpenNode store.initrd [slash] path directory with
  | error failure => exact hsound
  | ok entry =>
    dsimp only
    cases checkSearch store.initrd store.credentials entry.path directory with
    | error failure => exact hsound
    | ok _ => exact hsound.wrapNode (stands_of_open hopen)

theorem SoundStore.openNode (hsound : SoundStore store) (name path : List UInt8)
    (directory : Bool) :
    SoundStore (openNode store name path directory).2 := by
  unfold FileView.openNode
  cases hnode : syntheticForPath name directory with
  | none => exact hsound.openArchived path directory
  | some node => exact hsound.wrapNode (stands_of_synthetic store.initrd hnode)

/-- Every store that a run leaves is sound. -/
theorem soundStore_of_storeAfter {initrd : FacetInitrd} {credentials : Credentials}
    {users : List FacetConfigUser} {history : List Operation}
    (hstore : storeAfter initrd credentials users history = some store) : SoundStore store := by
  obtain ⟨passwd, shadow, -, rfl, -⟩ := storeAfter_extends hstore
  exact Runs.invariant_outputs (fun _ operation hstate =>
    perform_of_opens hstate hstate.openNode operation) ⟨by simp, by simp, by simp⟩ history

/-! ## What a handle designates -/

/-- What an answered request for a node stands for. -/
def designated (opened : Except FacetError ℕ × CredentialFileStore) :
    Except FacetError NodeTarget :=
  match opened.1 with
  | .error failure => .error failure
  | .ok handle => withNode opened.2 handle none (fun node => .ok node.target)

/-- A node of the store is what its handle leads to. -/
theorem SoundStore.withNode_eq (hsound : SoundStore store) {node : CredentialNode}
    (hnode : node ∈ store.nodes) {kind : Option Bool}
    (hkind : kind.all (fun directory => node.directory == directory)) {α : Type}
    (answer : CredentialNode → Except FacetError α) :
    withNode store node.handle kind answer = answer node := by
  have hfind : store.nodes.find? (fun other => other.handle == node.handle
      && kind.all (fun directory => other.directory == directory)) = some node := by
    obtain ⟨later, earlier, hsplit⟩ := List.append_of_mem hnode
    have hdistinct := hsound.distinct
    rw [hsplit, List.pairwise_append] at hdistinct
    rw [List.find?_eq_some_iff_append]
    refine ⟨by simpa using hkind, later, earlier, hsplit, ?_⟩
    intro other hother
    have hne := hdistinct.2.2 other hother node List.mem_cons_self
    simp [hne]
  rw [withNode, hfind]

/-- Wrapping gives the registered node, and the target where there is none. -/
theorem SoundStore.designated_wrapNode (hsound : SoundStore store) {target : NodeTarget}
    (hstands : Stands store.initrd directory target) :
    designated (.ok (FileView.wrapNode store target directory).1,
        (FileView.wrapNode store target directory).2)
      = .ok ((registered store target.path directory).elim target CredentialNode.target) := by
  have hafter := hsound.wrapNode hstands
  rw [wrapNode_eq] at hafter ⊢
  cases hnode : registered store target.path directory with
  | some node => exact hsound.withNode_eq (registered_some hnode).1 rfl _
  | none =>
    rw [hnode] at hafter
    exact hafter.withNode_eq List.mem_cons_self rfl _

/-! ## Handles over time -/

/-- A handle that leads to a node leads to it in every later store. -/
theorem SoundStore.withNode_of_suffix {after : CredentialFileStore} (hsound : SoundStore after)
    (hnodes : store.nodes <:+ after.nodes) {handle : ℕ} {kind : Option Bool} {α : Type}
    {answer : CredentialNode → Except FacetError α}
    (hissued : withNode store handle kind answer ≠ .error .invalidHandle) :
    withNode after handle kind answer = withNode store handle kind answer := by
  unfold withNode at hissued
  split at hissued <;> [contradiction; skip]
  rename_i node hfind
  have hmatch := List.find?_some hfind
  simp only [Bool.and_eq_true, beq_iff_eq] at hmatch
  obtain ⟨rfl, hkind⟩ := hmatch
  rw [hsound.withNode_eq (hnodes.mem (List.mem_of_find?_eq_some hfind)) hkind, withNode,
    hfind]

/-- Whatever is opened meanwhile, an operation on a node is answered as before. -/
theorem answers_permanent {initrd : FacetInitrd} {credentials : Credentials}
    {users : List FacetConfigUser} {history : List Operation} {operation : Operation}
    (hstore : storeAfter initrd credentials users history = some store)
    (hissued : inspect store operation ≠ .error .invalidHandle) (later : List Operation) :
    inspect (performAll store later).2 operation = inspect store operation := by
  have hsound : SoundStore (performAll store later).2 :=
    Runs.invariant_outputs (fun _ operation hstate =>
      perform_of_opens hstate hstate.openNode operation) (soundStore_of_storeAfter hstore) later
  have hextends := performAll_extends store later
  generalize (performAll store later).2 = after at hsound hextends ⊢
  obtain ⟨_, _, _, _, nodes⟩ := after
  -- the answers read only what the stores have in common
  obtain ⟨rfl, rfl, rfl, rfl, hnodes⟩ := hextends
  cases operation <;> first | rfl | exact hsound.withNode_of_suffix hnodes hissued

theorem answers_permanent_fstab :
    inspect (performAll (performAll ⟨.rootOnly, ⟨0, 0, true⟩, defaultPasswd, defaultShadow, []⟩
        [.storeOpenFile (ascii "/posix/etc/fstab")]).2
      [.storeOpenDirectory [slash]]).2 (.getSize 0) = .ok (.size 23) :=
  @answers_permanent _ .rootOnly ⟨0, 0, true⟩ [] _ (.getSize 0) rfl (by decide) _

end FacetOS.FileView
