import FacetOS.Core.Pagination
import FacetOS.Initrd.Lookup

/-!
# Listing a directory of the archive

The cursor of `directory_list` counts children, not table positions.  Each page is
the part of the list of children behind the cursor, so following the pages lists the
children once each and in archive order.
-/

namespace FacetOS.Initrd

open Paths Pagination
open Rpc (FacetError)

/-- The path of an entry with this name in a directory. -/
def childPath (directory name : List UInt8) : List UInt8 :=
  (if directory = [slash] then [slash] else directory ++ [slash]) ++ name

/-- The path is that of an immediate child with this name. -/
structure IsChild (directory path name : List UInt8) : Prop where
  path_eq : path = childPath directory name
  nonempty : name ≠ []
  single : slash ∉ name

variable {initrd : FacetInitrd} {node : InitrdEntry} {directory : List UInt8}

theorem pathBelow_eq_some_iff {path name : List UInt8} :
    pathBelow directory path = some name ↔ path = childPath directory name ∧ name ≠ [] := by
  rw [pathBelow, childPath]
  by_cases hroot : directory = [slash]
  · rw [if_pos hroot, if_pos hroot]
    cases path with
    | nil => simp
    | cons first rest =>
      simp only [List.head?_cons, Option.some.injEq, List.tail_cons, List.singleton_append,
        List.cons.injEq]
      constructor
      · intro hbelow
        split at hbelow
        · rename_i hfound
          cases hbelow
          exact ⟨⟨hfound.1, rfl⟩, hfound.2⟩
        · cases hbelow
      · rintro ⟨⟨rfl, rfl⟩, hname⟩
        rw [if_pos ⟨rfl, hname⟩]
  · rw [if_neg hroot, if_neg hroot]
    dsimp only
    constructor
    · intro hbelow
      split at hbelow
      · rename_i hfound
        obtain ⟨hbegin, hslash, hrest⟩ := hfound
        cases hbelow
        refine ⟨?_, hrest⟩
        have hdrop : path.drop directory.length =
            slash :: (path.drop directory.length).tail := by
          cases hparts : path.drop directory.length with
          | nil => simp [hparts] at hslash
          | cons first rest =>
            rw [hparts, List.head?_cons, Option.some.injEq] at hslash
            rw [hslash, List.tail_cons]
        conv_lhs => rw [← List.take_append_drop directory.length path, hbegin, hdrop]
        simp
      · cases hbelow
    · rintro ⟨rfl, hname⟩
      simp [hname]

theorem immediateChild_eq_some_iff {path name : List UInt8} :
    immediateChild directory path = some name ↔ IsChild directory path name := by
  rw [immediateChild, Option.filter_eq_some_iff, pathBelow_eq_some_iff]
  simp only [decide_eq_true_eq]
  constructor
  · rintro ⟨⟨hpath, hname⟩, hsingle⟩
    exact ⟨hpath, hname, hsingle⟩
  · rintro ⟨hpath, hname, hsingle⟩
    exact ⟨⟨hpath, hname⟩, hsingle⟩

/-- The type that a listing shows for an entry. -/
def InitrdEntry.listedType (entry : InitrdEntry) : EntryType :=
  if entry.directory then .directory else .file

theorem listedChild_eq_some_iff {entry : InitrdEntry} {listed : ListedEntry} :
    listedChild directory entry = some listed ↔
      IsChild directory entry.path listed.name ∧ listed.type = entry.listedType := by
  obtain ⟨name, type⟩ := listed
  rw [listedChild, Option.map_eq_some_iff]
  simp only [immediateChild_eq_some_iff, ListedEntry.mk.injEq, InitrdEntry.listedType]
  constructor
  · rintro ⟨found, hchild, rfl, rfl⟩
    exact ⟨hchild, rfl⟩
  · rintro ⟨hchild, rfl⟩
    exact ⟨name, hchild, rfl, rfl⟩

/-- The immediate children of a directory in archive order. -/
def children (initrd : FacetInitrd) (node : InitrdEntry) : List ListedEntry :=
  initrd.entries.filterMap (listedChild node.path)

theorem mem_children_iff {listed : ListedEntry} :
    listed ∈ children initrd node ↔
      ∃ entry ∈ initrd.entries, IsChild node.path entry.path listed.name ∧
        listed.type = entry.listedType := by
  rw [children, List.mem_filterMap]
  simp only [listedChild_eq_some_iff]

/-- No two children have the same name, because no two entries have the same path. -/
theorem nodup_names_children (initrd : FacetInitrd) (node : InitrdEntry) :
    ((children initrd node).map ListedEntry.name).Nodup := by
  have hnames : (children initrd node).map ListedEntry.name =
      (initrd.entries.map InitrdEntry.path).filterMap (immediateChild node.path) := by
    rw [children, List.map_filterMap, List.filterMap_map]
    congr 1
    funext entry
    simp [listedChild, Option.map_map, Function.comp_def]
  rw [hnames]
  apply initrd.distinct.filterMap
  intro left right name hleft hright
  rw [(immediateChild_eq_some_iff.mp hleft).path_eq,
    (immediateChild_eq_some_iff.mp hright).path_eq]

/-! ## Pages -/

/-- The loop takes what fits of the children behind the cursor. -/
theorem listChildren_eq {maximum skip count : ℕ} (hcount : count ≤ maximum)
    (items : List ListedEntry) :
    listChildren maximum skip count items =
      ((items.drop skip).take (maximum - count),
        decide (items.length ≤ skip + (maximum - count))) := by
  induction items generalizing skip count with
  | nil =>
    cases skip <;> simp [listChildren]
  | cons child rest ih =>
    cases skip with
    | succ skip =>
      rw [listChildren, ih hcount, List.drop_succ_cons, List.length_cons,
        show skip + 1 + (maximum - count) = skip + (maximum - count) + 1 by omega]
      simp
    | zero =>
      rw [listChildren]
      by_cases hfull : count = maximum
      · simp [hfull]
      · rw [if_neg hfull, ih (by omega),
          show maximum - count = maximum - (count + 1) + 1 by omega]
        simp

/-- A page of the directory as the library of pages has it. -/
def listPage (initrd : FacetInitrd) (node : InitrdEntry) (cursor maximum : ℕ) :
    Except FacetError (Page ListedEntry) :=
  (facetInitrdNodeList initrd node cursor maximum).map fun listing =>
    ⟨listing.entries, listing.next, listing.finished⟩

theorem length_children_le (initrd : FacetInitrd) (node : InitrdEntry) :
    (children initrd node).length ≤ initrd.entries.length :=
  List.length_filterMap_le ..

theorem facetInitrdNodeList_eq (hnode : node.directory = true) {cursor : ℕ}
    (hcursor : cursor ≤ (children initrd node).length) (maximum : ℕ) :
    facetInitrdNodeList initrd node cursor maximum =
      .ok { entries := ((children initrd node).drop cursor).take maximum
            next := min (cursor + maximum) (children initrd node).length
            finished := decide ((children initrd node).length ≤ cursor + maximum) } := by
  have hle := length_children_le initrd node
  rw [facetInitrdNodeList, hnode, if_neg (by simp), if_neg (by omega), ← children,
    listChildren_eq (Nat.zero_le _)]
  dsimp only
  congr 2
  rw [Nat.sub_zero, List.length_take, List.length_drop]
  omega

theorem enumerates_listPage (hnode : node.directory = true) :
    Enumerates (listPage initrd node) (children initrd node) := by
  intro cursor size hcursor hsize
  rw [listPage, facetInitrdNodeList_eq hnode hcursor]
  rfl

/-- No page moves the cursor back. -/
theorem le_next_of_listPage {cursor maximum : ℕ} {page : Page ListedEntry}
    (hpage : listPage initrd node cursor maximum = .ok page) :
    cursor ≤ page.next := by
  rw [listPage, facetInitrdNodeList] at hpage
  split at hpage
  · cases hpage
  · split at hpage
    · cases hpage
    · cases hpage
      exact Nat.le_add_right ..

/-- Following the pages of a directory from cursor 0 ends for every sequence of page
sizes and lists the immediate children: those entries, in archive order, whose path
is that of the directory with one more name, each with this name once and with its
type.  The end is reported exactly when no child is left behind the page. -/
theorem listing_pages_exact (initrd : FacetInitrd) (node : InitrdEntry)
    (hnode : node.directory = true) (sizes : ℕ → ℕ) (hsizes : ∀ index, 0 < sizes index) :
    (∀ count, (children initrd node).length < count →
      follow (listPage initrd node) ((List.range count).map sizes) 0 =
        .ok (children initrd node, true)) ∧
      (∀ cursor maximum page, cursor ≤ (children initrd node).length → 0 < maximum →
        listPage initrd node cursor maximum = .ok page →
        (page.finished = true ↔ (children initrd node).drop page.next = [])) ∧
      (∀ listed, listed ∈ children initrd node ↔
        ∃ entry ∈ initrd.entries, IsChild node.path entry.path listed.name ∧
          listed.type = entry.listedType) ∧
      ((children initrd node).map ListedEntry.name).Nodup := by
  refine ⟨fun count hcount => follow_range (enumerates_listPage hnode) hsizes hcount,
    fun cursor maximum page hcursor hmaximum hpage => ?_, fun listed => mem_children_iff,
    nodup_names_children initrd node⟩
  rw [enumerates_listPage hnode cursor maximum hcursor hmaximum] at hpage
  cases hpage
  dsimp only
  rw [decide_eq_true_eq, List.drop_eq_nil_iff]
  omega

/-- An archive with two files in its root. -/
def pairArchive : FacetInitrd :=
  (FacetInitrd.rootOnly.append ⟨ascii "/left", [1], false, 0o100644, 0, 0⟩ ⟨rfl, by decide⟩
    (by decide)).append ⟨ascii "/right", [2], false, 0o100644, 0, 0⟩ ⟨rfl, by decide⟩ (by decide)

theorem listing_pages_pair :
    follow (listPage pairArchive rootEntry) ((List.range 3).map fun _ => 1) 0 =
      .ok ([⟨ascii "left", .file⟩, ⟨ascii "right", .file⟩], true) :=
  (listing_pages_exact pairArchive rootEntry rfl (fun _ => 1) (fun _ => Nat.one_pos)).1 3
    (by decide)

end FacetOS.Initrd
