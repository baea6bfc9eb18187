import FacetOS.Initrd.Accepted
import FacetOS.Initrd.Listing
import FacetOS.FileView.Refinement

/-!
# Which accepted entries can be reached

`canonical_path` decides which names the archive may hold, `resolve_path` which paths
a lookup can ask for.  The first accepts more than the second produces: names with a
component `.`, with a separator at the end or beyond the length limit stay in the
table under a path that no lookup asks for.  Nor does the reader ask for the
directory that an entry lies in.
-/

namespace FacetOS.FileView

open Initrd Paths Pagination
open Rpc (FacetError)

/-! ## Parents and names -/

/-- The path before the last separator, or `/` for what lies in the root. -/
def parentPath (path : List UInt8) : List UInt8 :=
  let front := path.rdropWhile (fun byte => byte ≠ slash)
  if front = [slash] then front else front.dropLast

/-- What stands behind the last separator. -/
def baseName (path : List UInt8) : List UInt8 :=
  path.rtakeWhile (fun byte => byte ≠ slash)

/-- However the pages of the directory are cut, the name is listed once and with this
type. -/
def ListsOnce (initrd : FacetInitrd) (directory : InitrdEntry) (name : List UInt8)
    (type : EntryType) : Prop :=
  ∀ (sizes : ℕ → ℕ) (count : ℕ), (∀ index, 0 < sizes index) → initrd.entries.length < count →
    ∃ listed, follow (listPage initrd directory) ((List.range count).map sizes) 0 =
        .ok (listed, true) ∧
      ⟨name, type⟩ ∈ listed ∧ (listed.map ListedEntry.name).count name = 1

/-- The entry opens under its own path, and lies in a directory that lists it. -/
structure ReachableEntry (initrd : FacetInitrd) (entry : InitrdEntry) : Prop where
  opened : storeOpenEntry initrd entry.path entry.directory = .ok entry
  placed : ∃ parent ∈ initrd.entries, parent.directory = true ∧
    parent.path = parentPath entry.path ∧
    ListsOnce initrd parent (baseName entry.path) entry.listedType

/-- A stored path that a lookup can ask for. -/
structure PlainPath (path : List UInt8) : Prop where
  fits : path.length ≤ facetPathMax
  ends : path.getLast? ≠ some slash
  dotless : [dot] ∉ components slash path

/-- The archive has a directory under the path that this one lies in. -/
def HasParent (initrd : FacetInitrd) (path : List UInt8) : Prop :=
  ∃ parent ∈ initrd.entries, parent.directory = true ∧ parent.path = parentPath path

/-- The last name of a path lies in the directory of the names before it. -/
theorem isChild_absolutePath {front : List (List UInt8)} {last : List UInt8}
    (hstack : NameStack (front ++ [last])) :
    IsChild (absolutePath front) (absolutePath (front ++ [last])) last := by
  obtain ⟨hfront, ⟨hempty, hslash⟩, -⟩ := hstack.concat
  refine ⟨?_, hempty, hslash⟩
  rw [absolutePath_concat, childPath]
  by_cases hroot : front = []
  · rw [if_pos hroot, if_pos ((absolutePath_eq_root_iff hfront).mpr hroot), hroot]
    rfl
  · rw [if_neg hroot, if_neg (fun heq => hroot ((absolutePath_eq_root_iff hfront).mp heq))]

section Child

variable {directory path name : List UInt8}

theorem separatorless_child (hchild : IsChild directory path name) :
    ∀ byte ∈ name.reverse, decide (byte ≠ slash) = true := by
  intro byte hbyte
  rw [decide_eq_true_eq]
  rintro rfl
  exact hchild.single (List.mem_reverse.mp hbyte)

theorem baseName_child (hchild : IsChild directory path name) : baseName path = name := by
  have hend : ∃ front, path = front ++ slash :: name := by
    rw [hchild.path_eq, childPath]
    split
    · exact ⟨[], rfl⟩
    · exact ⟨directory, by simp⟩
  obtain ⟨front, rfl⟩ := hend
  rw [baseName, List.rtakeWhile, List.reverse_append, List.reverse_cons, List.append_assoc,
    List.takeWhile_append_of_pos (separatorless_child hchild)]
  simp

theorem parentPath_child (hdirectory : directory ≠ []) (hchild : IsChild directory path name) :
    parentPath path = directory := by
  have hcut : ∀ front, (front ++ [slash] ++ name).rdropWhile (fun byte => byte ≠ slash) =
      front ++ [slash] := by
    intro front
    rw [List.rdropWhile, List.reverse_append,
      List.dropWhile_append_of_pos (separatorless_child hchild)]
    simp
  rw [hchild.path_eq, parentPath, childPath]
  by_cases hroot : directory = [slash]
  · rw [if_pos hroot, ← List.nil_append [slash], hcut, hroot]
    rfl
  · rw [if_neg hroot, hcut, if_neg, List.dropLast_concat]
    intro heq
    exact hdirectory (List.append_left_eq_self.mp heq)

end Child

/-- An accepted path that a lookup can ask for is canonical. -/
theorem canonicalPath_of_plain {entry : InitrdEntry} (hentry : Recorded entry)
    (hplain : PlainPath entry.path) : CanonicalPath entry.path := by
  obtain ⟨name, hname⟩ := hentry.named
  obtain ⟨rest, hpath, hempty, hhead, haccepted⟩ := canonicalPath_eq_some hname
  have hrest : [slash].intercalate (rest.splitOn slash) = rest := List.intercalate_splitOn slash
  have hlast : rest.getLast? ≠ some slash := by
    have hends := hplain.ends
    rwa [hpath, List.getLast?_cons_of_ne_nil hempty] at hends
  have hparts : [] ∉ rest.splitOn slash :=
    parts_of_nameRejected (by rwa [hrest]) (by rwa [hrest]) (by rwa [hrest]) (by rwa [hrest])
  have hnonempty : ∀ part ∈ rest.splitOn slash, part ≠ [] := fun part hpart heq =>
    hparts (heq ▸ hpart)
  have hcomponents : components slash entry.path = rest.splitOn slash := by
    rw [hpath, components_separator_cons, components, List.filter_eq_self]
    intro part hpart
    simpa using hnonempty part hpart
  have hdotless := hplain.dotless
  rw [hcomponents] at hdotless
  refine ⟨⟨rest.splitOn slash, ?_, ?_⟩, (canonicalPath_stored hname).terminated, hplain.fits⟩
  · intro part hpart
    refine ⟨⟨hnonempty part hpart, not_mem_of_mem_splitOn hpart⟩, ?_, ?_⟩
    · rintro rfl
      exact hdotless hpart
    · rintro rfl
      exact parent_not_mem_of_nameRejected (by rwa [hrest]) hpart
  · rw [absolutePath, rendered, hrest, hpath, List.singleton_append]

theorem plain_of_canonicalPath {path : List UInt8} (hpath : CanonicalPath path)
    (hroot : path ≠ [slash]) : PlainPath path := by
  refine ⟨hpath.fits, hpath.getLast?_ne hroot, ?_⟩
  obtain ⟨stack, hstack, rfl⟩ := hpath.rendered
  rw [components_absolutePath hstack]
  intro hdot
  exact (hstack _ hdot).2.1 rfl

/-! ## Opening and listing -/

section Archive

variable {initrd : FacetInitrd} {entry : InitrdEntry}

theorem storeOpenEntry_canonical (hentry : entry ∈ initrd.entries)
    (hpath : CanonicalPath entry.path) (hroot : entry.path ≠ [slash]) :
    storeOpenEntry initrd entry.path entry.directory = .ok entry := by
  have hfind : findEntry initrd entry.path entry.directory = some entry :=
    findEntry_eq_some_iff.mpr ⟨hentry, rfl, rfl⟩
  rw [storeOpenEntry, facetInitrdOpenNode, hpath.resolvePath_eq rfl, decide_eq_false hroot]
  simp [hfind, foundNode]

/-- A directory lists each of its children once. -/
theorem listsOnce_child {parent : InitrdEntry} {name : List UInt8}
    (hdirectory : parent.directory = true) (hentry : entry ∈ initrd.entries)
    (hchild : IsChild parent.path entry.path name) :
    ListsOnce initrd parent name entry.listedType := by
  have hmem : (⟨name, entry.listedType⟩ : ListedEntry) ∈ children initrd parent :=
    mem_children_iff.mpr ⟨entry, hentry, hchild, rfl⟩
  intro sizes count hsizes hcount
  refine ⟨children initrd parent, ?_, hmem, ?_⟩
  · exact follow_range (enumerates_listPage hdirectory) hsizes
      ((length_children_le initrd parent).trans_lt hcount)
  · exact List.count_eq_one_of_mem (nodup_names_children initrd parent)
      (List.mem_map_of_mem hmem)

/-- An entry of an accepted archive other than the root opens under its stored path
and is listed once in a directory of the archive exactly if a lookup can ask for this
path and the archive has the directory that it lies in. -/
theorem accepted_entry_reachable_iff {image : List UInt8}
    (hcreate : facetInitrdCreate image = some initrd) (hentry : entry ∈ initrd.entries)
    (hroot : entry ≠ rootEntry) :
    ReachableEntry initrd entry ↔ PlainPath entry.path ∧ HasParent initrd entry.path := by
  have hrecorded : Recorded entry := (recorded_of_create hcreate hentry).resolve_left hroot
  have hpath : entry.path ≠ [slash] := by
    obtain ⟨name, hname⟩ := hrecorded.named
    obtain ⟨rest, hpath, hempty, -⟩ := canonicalPath_eq_some hname
    rw [hpath]
    simpa using hempty
  constructor
  · rintro ⟨hopened, parent, hparent, hdirectory, hplace, -⟩
    exact ⟨plain_of_canonicalPath (canonicalPath_of_open hopened) hpath, parent, hparent,
      hdirectory, hplace⟩
  · rintro ⟨hplain, parent, hparent, hdirectory, hplace⟩
    have hcanonical := canonicalPath_of_plain hrecorded hplain
    refine ⟨storeOpenEntry_canonical hentry hcanonical hpath, parent, hparent, hdirectory,
      hplace, ?_⟩
    obtain ⟨stack, hstack, hrendered⟩ := hcanonical.rendered
    cases stack using List.reverseRecOn with
    | nil => exact absurd hrendered hpath
    | append_singleton front last =>
      have hchild := isChild_absolutePath hstack
      rw [← hrendered] at hchild
      have hfront : absolutePath front ≠ [] :=
        List.length_pos_iff.mp (length_absolutePath_pos front)
      rw [baseName_child hchild]
      apply listsOnce_child hdirectory hentry
      rwa [hplace, parentPath_child hfront hchild]

end Archive

/-! ## Two small archives -/

def fileEntry (path : List UInt8) : InitrdEntry :=
  ⟨path, [], false, 0o100644, 0, 0⟩

theorem accepted_entry_reachable_plain :
    ∃ initrd entry, facetInitrdCreate (fileRecord (ascii "a")) = some initrd ∧
      entry ∈ initrd.entries ∧ entry ≠ rootEntry ∧ ReachableEntry initrd entry := by
  have hloaded : (facetInitrdCreate (fileRecord (ascii "a"))).map FacetInitrd.entries =
      some [rootEntry, fileEntry (ascii "/a")] := by
    decide +kernel
  obtain ⟨initrd, hcreate, hentries⟩ := Option.map_eq_some_iff.mp hloaded
  have hentry : fileEntry (ascii "/a") ∈ initrd.entries := by simp [hentries]
  have hroot : fileEntry (ascii "/a") ≠ rootEntry := by decide
  refine ⟨initrd, _, hcreate, hentry, hroot,
    (accepted_entry_reachable_iff hcreate hentry hroot).mpr ⟨⟨?_, ?_, ?_⟩, rootEntry, ?_⟩⟩
  · decide
  · decide
  · decide
  · simp [hentries, rootEntry, fileEntry, parentPath, ascii]
    decide

/-- The accepted name `a/./b` is not found under its own path. -/
theorem dotted_entry_unreachable :
    ∃ initrd entry, facetInitrdCreate (fileRecord (ascii "a/./b")) = some initrd ∧
      entry ∈ initrd.entries ∧ entry ≠ rootEntry ∧
      storeOpenEntry initrd entry.path entry.directory = .error .notFound ∧
      ¬ ReachableEntry initrd entry := by
  have hloaded : (facetInitrdCreate (fileRecord (ascii "a/./b"))).map FacetInitrd.entries =
      some [rootEntry, fileEntry (ascii "/a/./b")] := by
    decide +kernel
  obtain ⟨initrd, hcreate, hentries⟩ := Option.map_eq_some_iff.mp hloaded
  have hmissing : storeOpenEntry initrd (ascii "/a/./b") false = .error .notFound := by
    have hresolve : resolvePath [slash] (ascii "/a/./b") = .ok (ascii "/a/b", false) := by decide
    rw [storeOpenEntry, facetInitrdOpenNode, hresolve]
    simp only [findEntry, hentries]
    decide
  refine ⟨initrd, fileEntry (ascii "/a/./b"), hcreate, by simp [hentries], by decide, hmissing, ?_⟩
  intro hreachable
  have hopened := hreachable.opened.symm.trans hmissing
  cases hopened

end FacetOS.FileView
