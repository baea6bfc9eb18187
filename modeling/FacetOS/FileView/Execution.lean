import FacetOS.FileView.Refinement

/-!
# Executing a file and opening it

Before a process is launched, `facet_initrd_check_execute` walks the ancestors of
the executable with a lookup of its own.  The credential store of the same
identity walks them when the file is opened.  On canonical paths both walks make
the same decision, whatever is missing from the archive.
-/

namespace FacetOS.FileView

open Initrd Paths
open Rpc (FacetError)
open Config (FacetConfigUser)

theorem checkAll_eq_ok_iff {α : Type} {check : α → Except FacetError Unit} {items : List α} :
    checkAll check items = .ok () ↔ ∀ item ∈ items, check item = .ok () := by
  induction items with
  | nil => simp [checkAll]
  | cons item items ih =>
    rw [checkAll, List.forall_mem_cons, ← ih]
    cases check item <;> simp

variable {path : List UInt8}

section

variable {initrd : FacetInitrd} {credentials : Credentials}

theorem checkExecuteAncestor_eq_ok_iff :
    checkExecuteAncestor initrd credentials.uid credentials.gid credentials.admin path = .ok ()
      ↔ Searchable initrd credentials path := by
  rw [checkExecuteAncestor, Searchable]
  cases findEntry initrd path true with
  | none => simp
  | some directory =>
    by_cases hallowed : modeAllows directory.mode directory.uid directory.gid credentials.uid
        credentials.gid credentials.admin 1 = true
    · simp [entryAllows, hallowed]
    · simp [entryAllows, hallowed]

/-- Every directory on the way to a path may be searched. -/
def Approachable (initrd : FacetInitrd) (credentials : Credentials) (path : List UInt8) : Prop :=
  ∀ ancestor ∈ ancestorPaths path, Searchable initrd credentials ancestor

theorem checkSearch_eq_ok_iff (hpath : CanonicalPath path) :
    checkSearch initrd credentials path false = .ok ()
      ↔ Approachable initrd credentials path := by
  have hancestor : ∀ ancestor ∈ ancestorPaths path,
      (checkSearchStep initrd credentials ancestor = .ok ()
        ↔ Searchable initrd credentials ancestor) :=
    fun ancestor hmem => checkSearchStep_eq_ok_iff (hpath.of_mem_ancestorPaths hmem)
  have hvisited : searchedPaths path false = [slash] :: ancestorPaths path := by
    simp [searchedPaths]
  rw [checkSearch, if_neg (not_not.mpr hpath.absolute), checkAll_eq_ok_iff, hvisited,
    List.forall_mem_cons, and_iff_right (checkSearchStep_root initrd credentials)]
  exact forall₂_congr hancestor

/-- The executable check passes exactly for an executable file whose ancestors
may all be searched. -/
theorem facetInitrdCheckExecute_eq_ok_iff (hpath : CanonicalPath path) :
    facetInitrdCheckExecute initrd path credentials.uid credentials.gid credentials.admin = .ok ()
      ↔ Approachable initrd credentials path
        ∧ ∃ file, findEntry initrd path false = some file
          ∧ entryAllows file credentials.uid credentials.gid credentials.admin 1 = true := by
  obtain ⟨root, hroot, hallowed⟩ := (checkSearchStep_eq_ok_iff canonicalPath_root).mp
    (checkSearchStep_root initrd credentials)
  have hshort : ¬(path.head? ≠ some slash ∨ facetPathMax < path.length) := by
    rw [not_or, not_not, not_lt]
    exact ⟨hpath.absolute, hpath.fits⟩
  have hancestors : checkAll (checkExecuteAncestor initrd credentials.uid credentials.gid
      credentials.admin) (ancestorPaths path) = .ok () ↔ Approachable initrd credentials path := by
    rw [checkAll_eq_ok_iff]
    exact forall₂_congr (fun _ _ => checkExecuteAncestor_eq_ok_iff)
  have hrootAllowed : (!entryAllows root credentials.uid credentials.gid credentials.admin 1)
      = false := by
    rw [entryAllows, hallowed]
    rfl
  rw [facetInitrdCheckExecute, if_neg hshort, hroot]
  dsimp only
  rw [hrootAllowed, if_neg Bool.false_ne_true, ← hancestors]
  cases checkAll (checkExecuteAncestor initrd credentials.uid credentials.gid credentials.admin)
      (ancestorPaths path) with
  | error failure => simp
  | ok accepted =>
    cases findEntry initrd path false <;> simp

end

section

variable {store : CredentialFileStore} (hsound : SoundStore store)

include hsound

/-- A path that is no synthetic name is handed out as the archive has it. -/
theorem SoundStore.registered_file
    (hname : syntheticForPath path false = none) {entry : InitrdEntry}
    (hfind : findEntry store.initrd path false = some entry) :
    (registered store path false).elim (.backing entry) CredentialNode.target
      = .backing entry := by
  cases hnode : registered store path false with
  | none => rfl
  | some node =>
    obtain ⟨hmem, hkind, hpath⟩ := registered_some hnode
    have hstands := hsound.stands node hmem
    rw [hkind] at hstands
    rw [CredentialNode.path] at hpath
    cases htarget : node.target with
    | synthetic synthetic =>
      rw [htarget] at hstands hpath
      change synthetic.path = path at hpath
      change syntheticForPath synthetic.path false = some synthetic at hstands
      rw [hpath, hname] at hstands
      contradiction
    | backing other =>
      rw [htarget] at hstands hpath
      change other.path = path at hpath
      have hother : findEntry store.initrd path false = some other := hpath ▸ hstands.1
      rw [hfind] at hother
      rw [Option.elim_some, htarget, Option.some.inj hother]

/-- The store opens a canonical path as a file exactly when the archive has the
file and all its ancestors may be searched. -/
theorem SoundStore.storeOpen_file_iff (hpath : CanonicalPath path)
    (hname : syntheticForPath path false = none) (entry : InitrdEntry) :
    designated (FileView.storeOpen store path false) = .ok (.backing entry)
      ↔ Approachable store.initrd store.credentials path
        ∧ findEntry store.initrd path false = some entry := by
  have hnonempty : path ≠ [] := by
    rintro rfl
    simpa using hpath.absolute
  rw [FileView.storeOpen, if_neg hnonempty, cString_eq_self hpath.terminated, FileView.openNode,
    hname]
  have hopen : facetInitrdOpenNode store.initrd [slash] path false
      = foundNode (findEntry store.initrd path false) := by
    rw [facetInitrdOpenNode, hpath.resolvePath_eq rfl]
    by_cases hroot : path = [slash]
    · simp [hroot, findEntry_root_file]
    · simp [hroot]
  rw [FileView.openArchived, hopen]
  cases hfind : findEntry store.initrd path false with
  | none => simp [foundNode, designated]
  | some file =>
    obtain ⟨-, hfile, hkind⟩ := findEntry_some hfind
    have hstands : Stands store.initrd false (.backing file) := by
      refine ⟨?_, hfile ▸ hpath⟩
      rw [hfile, hfind]
    rw [← checkSearch_eq_ok_iff hpath, ← hfile]
    dsimp only [foundNode]
    cases checkSearch store.initrd store.credentials file.path false with
    | error failure => simp [designated]
    | ok accepted =>
      have hdesignated := hsound.designated_wrapNode hstands
      have hregistered := hsound.registered_file (hfile ▸ hname) (hfile ▸ hfind)
      rw [show (NodeTarget.backing file).path = file.path from rfl, hregistered] at hdesignated
      simp only [true_and]
      rw [Option.some.injEq]
      exact (Eq.congr_left hdesignated).trans (by simp)

end

/-- For a canonical path that is no synthetic name, the executable check passes
exactly when the store of the same identity opens the path as a file whose mode
grants execution. -/
theorem check_execute_iff_opens {initrd : FacetInitrd} {credentials : Credentials}
    {users : List FacetConfigUser} {history : List Operation} {store : CredentialFileStore}
    (hstore : storeAfter initrd credentials users history = some store)
    {stack : List (List UInt8)} (hstack : NameStack stack) (hzero : 0 ∉ absolutePath stack)
    (hname : syntheticForPath (absolutePath stack) false = none) :
    facetInitrdCheckExecute initrd (absolutePath stack) credentials.uid credentials.gid
        credentials.admin = .ok ()
      ↔ ∃ entry, designated (storeOpen store (absolutePath stack) false) = .ok (.backing entry)
        ∧ modeAllows entry.mode entry.uid entry.gid credentials.uid credentials.gid
          credentials.admin 1 = true := by
  have hsound := soundStore_of_storeAfter hstore
  obtain ⟨-, -, -, -, rfl, rfl⟩ := storeAfter_extends hstore
  by_cases hfits : (absolutePath stack).length ≤ facetPathMax
  · have hpath : CanonicalPath (absolutePath stack) := ⟨⟨stack, hstack, rfl⟩, hzero, hfits⟩
    rw [facetInitrdCheckExecute_eq_ok_iff hpath]
    constructor
    · rintro ⟨happroach, file, hfind, hallowed⟩
      exact ⟨file, (hsound.storeOpen_file_iff hpath hname file).mpr ⟨happroach, hfind⟩, hallowed⟩
    · rintro ⟨entry, hopened, hallowed⟩
      obtain ⟨happroach, hfind⟩ := (hsound.storeOpen_file_iff hpath hname entry).mp hopened
      exact ⟨happroach, entry, hfind, hallowed⟩
  · -- a longer path is refused by both
    rw [not_le] at hfits
    have hnonempty : absolutePath stack ≠ [] :=
      List.length_pos_iff.mp (length_absolutePath_pos stack)
    rw [facetInitrdCheckExecute, if_pos (.inr hfits), storeOpen, if_neg hnonempty,
      cString_eq_self hzero, openNode_long store hfits]
    simp [designated]

/-- An archive with one program that everybody may execute. -/
def programArchive : FacetInitrd :=
  FacetInitrd.rootOnly.append ⟨ascii "/program", [7], false, 0o100755, 0, 0⟩ ⟨rfl, by decide⟩
    (by decide)

/-- With a second one in a directory that everybody may search. -/
def nestedArchive : FacetInitrd :=
  (programArchive.append ⟨ascii "/bin", [], true, 0o040711, 0, 0⟩ ⟨rfl, by decide⟩
    (by decide)).append ⟨ascii "/bin/run", [7], false, 0o100755, 0, 0⟩ ⟨rfl, by decide⟩ (by decide)

theorem check_execute_nested :
    facetInitrdCheckExecute nestedArchive (ascii "/bin/run") 1000 1000 false = .ok ()
      ∧ ∃ entry, designated (storeOpen ⟨nestedArchive, ⟨1000, 1000, false⟩, defaultPasswd,
          defaultShadow, []⟩ (ascii "/bin/run") false) = .ok (.backing entry)
        ∧ modeAllows entry.mode entry.uid entry.gid 1000 1000 false 1 = true := by
  have hexecute :
      facetInitrdCheckExecute nestedArchive (ascii "/bin/run") 1000 1000 false = .ok () := by
    decide
  have hstore : storeAfter nestedArchive ⟨1000, 1000, false⟩ [] []
      = some ⟨nestedArchive, ⟨1000, 1000, false⟩, defaultPasswd, defaultShadow, []⟩ := rfl
  have hstack : NameStack [ascii "bin", ascii "run"] := by
    simp [NameStack, Name, Component]
    decide
  exact ⟨hexecute, (check_execute_iff_opens hstore hstack (by decide) (by decide)).mp hexecute⟩

end FacetOS.FileView
