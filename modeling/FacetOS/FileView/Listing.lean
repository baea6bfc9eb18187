import FacetOS.FileView.Store
import FacetOS.Initrd.Listing

/-!
# Listing through credentials

`directory_list` of a credential node lists the node of the archive behind it.  The
synthetic `/posix/etc` is no entry of the archive, so the listing of `/posix` appends
it, and it does so on the first page only.
-/

namespace FacetOS.FileView

open Paths Initrd Pagination
open Rpc (FacetError)

/-- A page of a node as the library of pages has it. -/
def credentialPage (store : CredentialFileStore) (target : NodeTarget) (cursor maximum : ℕ) :
    Except FacetError (Page ListedEntry) :=
  (directoryList store cursor maximum target).map fun listing =>
    ⟨listing.entries, listing.next, listing.finished⟩

/-! ## The synthetic directory -/

/-- The three files of `/posix/etc`. -/
def etcEntries : List ListedEntry := etcNames.map fun name => ⟨name, .file⟩

theorem enumerates_etc (store : CredentialFileStore) :
    Enumerates (credentialPage store (.synthetic .etcDirectory)) etcEntries := by
  intro cursor size hcursor hsize
  have hthree : etcEntries.length = 3 := rfl
  have hnames : etcNames.length = 3 := rfl
  rw [hthree] at hcursor ⊢
  rw [credentialPage, directoryList, listEtc, hnames]
  by_cases hend : 3 ≤ cursor
  · have hlast : cursor = 3 := by omega
    subst hlast
    rw [if_pos (Or.inl le_rfl)]
    simp [Except.map, etcEntries, etcNames]
  · rw [if_neg (by omega)]
    simp only [Except.map, List.length_take, List.length_drop, hnames, etcEntries,
      List.map_take, List.map_drop]
    congr 2
    · omega
    · rw [decide_eq_decide]
      omega

/-! ## The directory with the synthetic child -/

/-- How the listing of `/posix` shows the synthetic directory. -/
def etcChild : ListedEntry := ⟨ascii "etc", .directory⟩

/-- What the listing of `/posix` is meant to show: the children of the archive, with
the synthetic directory in the place of an entry of its name. -/
def shownChildren (initrd : FacetInitrd) (posix : InitrdEntry) : List ListedEntry :=
  etcChild :: (children initrd posix).filter fun child => child.name ≠ ascii "etc"

section

variable {store : CredentialFileStore} {posix : InitrdEntry}
  (hpath : posix.path = ascii "/posix") (hdirectory : posix.directory = true)
  (haccess : checkAccess store.credentials posix 5 = .ok ())

include haccess in
/-- Behind the first page the listing is that of the archive. -/
theorem credentialPage_of_pos {cursor : ℕ} (hcursor : 0 < cursor) (maximum : ℕ) :
    credentialPage store (.backing posix) cursor maximum =
      listPage store.initrd posix cursor maximum := by
  rw [credentialPage, directoryList, haccess, listPage]
  cases facetInitrdNodeList store.initrd posix cursor maximum with
  | error failure => rfl
  | ok listing =>
    simp only [Except.map]
    rw [if_pos (Or.inl hcursor.ne')]

include hpath hdirectory haccess in
/-- The first page shows the synthetic directory behind all children if it has room
for it. -/
theorem credentialPage_zero (maximum : ℕ) :
    credentialPage store (.backing posix) 0 maximum =
      .ok { entries := (children store.initrd posix).take maximum ++
              if (children store.initrd posix).length < maximum then [etcChild] else []
            next := min maximum (children store.initrd posix).length
            finished := decide ((children store.initrd posix).length ≤ maximum) } := by
  rw [credentialPage, directoryList, haccess]
  rw [facetInitrdNodeList_eq hdirectory (Nat.zero_le _)]
  simp only [Except.map, List.drop_zero, Nat.zero_add, hpath, List.length_take]
  by_cases hroom : (children store.initrd posix).length < maximum
  · rw [if_neg (by simp; omega), if_pos hroom]
    rfl
  · rw [if_pos (by simp; omega), if_neg hroom, List.append_nil]

include hpath hdirectory haccess in
/-- Following the pages lists the children, and behind them the synthetic directory
exactly if the first page is larger than their number. -/
theorem follow_credentialPage {sizes : ℕ → ℕ} (hsizes : ∀ index, 0 < sizes index) {count : ℕ}
    (hcount : (children store.initrd posix).length < count) :
    follow (credentialPage store (.backing posix)) ((List.range count).map sizes) 0 =
      .ok (children store.initrd posix ++
        (if (children store.initrd posix).length < sizes 0 then [etcChild] else []), true) := by
  obtain ⟨count, rfl⟩ : ∃ smaller, count = smaller + 1 := ⟨count - 1, by omega⟩
  rw [List.range_succ_eq_map, List.map_cons, List.map_map, follow,
    credentialPage_zero hpath hdirectory haccess]
  dsimp only
  by_cases hlast : (children store.initrd posix).length ≤ sizes 0
  · rw [if_pos (decide_eq_true hlast), List.take_of_length_le hlast]
  have hfirst := hsizes 0
  rw [if_neg (by simpa using hlast), if_neg (by omega), min_eq_left (by omega),
    follow_congr (fun cursor size hcursor => credentialPage_of_pos haccess hcursor size)
      (fun cursor size found => le_next_of_listPage) _ hfirst,
    follow_enumerates (enumerates_listPage hdirectory) _ (by omega)]
  · simp [Except.map]
  · simp
    omega
  · intro size hsize
    obtain ⟨index, -, rfl⟩ := List.mem_map.mp hsize
    exact hsizes _

end

/-- Children with the synthetic directory behind them are what is shown if none of
them has its name. -/
theorem perm_shownChildren_append_iff (initrd : FacetInitrd) (posix : InitrdEntry) :
    (children initrd posix ++ [etcChild]).Perm (shownChildren initrd posix) ↔
      ∀ child ∈ children initrd posix, child.name ≠ ascii "etc" := by
  constructor
  · intro hperm
    have hlength := hperm.length_eq
    rw [shownChildren, List.length_append, List.length_singleton, List.length_cons,
      Nat.add_right_cancel_iff] at hlength
    have hall := List.length_filter_eq_length_iff.mp hlength.symm
    intro child hchild
    exact of_decide_eq_true (hall child hchild)
  · intro hother
    rw [shownChildren, List.filter_eq_self.mpr fun child hchild => decide_eq_true
      (hother child hchild)]
    exact List.perm_append_singleton _ _

/-- The children alone are what is shown if the archive has the directory itself. -/
theorem perm_shownChildren_iff (initrd : FacetInitrd) (posix : InitrdEntry) :
    (children initrd posix).Perm (shownChildren initrd posix) ↔
      etcChild ∈ children initrd posix := by
  have hnames := nodup_names_children initrd posix
  have hnodup := List.Nodup.of_map _ hnames
  constructor
  · intro hperm
    exact hperm.mem_iff.mpr List.mem_cons_self
  intro hetc
  rw [shownChildren, List.perm_ext_iff_of_nodup hnodup]
  · intro child
    rw [List.mem_cons, List.mem_filter, decide_eq_true_eq]
    constructor
    · intro hchild
      by_cases hname : child.name = ascii "etc"
      · exact Or.inl (List.inj_on_of_nodup_map hnames hchild hetc hname)
      · exact Or.inr ⟨hchild, hname⟩
    · rintro (rfl | ⟨hchild, -⟩)
      · exact hetc
      · exact hchild
  · rw [List.nodup_cons]
    refine ⟨fun hmem => ?_, hnodup.filter _⟩
    simpa [etcChild] using (List.mem_filter.mp hmem).2

/-! ## The entry of the archive -/

theorem isChild_etc_iff {path name : List UInt8} (hname : name = ascii "etc") :
    IsChild (ascii "/posix") path name ↔ path = ascii "/posix/etc" := by
  subst hname
  constructor
  · intro hchild
    exact hchild.path_eq
  · intro hpath
    exact ⟨hpath, by decide, by decide⟩

theorem etcChild_mem_children_iff {initrd : FacetInitrd} {posix : InitrdEntry}
    (hpath : posix.path = ascii "/posix") :
    etcChild ∈ children initrd posix ↔
      ∃ entry ∈ initrd.entries, entry.path = ascii "/posix/etc" ∧ entry.directory = true := by
  rw [mem_children_iff, hpath]
  apply exists_congr
  intro entry
  rw [isChild_etc_iff (show etcChild.name = ascii "etc" from rfl)]
  have htype : etcChild.type = entry.listedType ↔ entry.directory = true := by
    cases hkind : entry.directory <;> simp [etcChild, InitrdEntry.listedType, hkind]
  rw [htype]

theorem forall_name_ne_etc_iff {initrd : FacetInitrd} {posix : InitrdEntry}
    (hpath : posix.path = ascii "/posix") :
    (∀ child ∈ children initrd posix, child.name ≠ ascii "etc") ↔
      ∀ entry ∈ initrd.entries, entry.path ≠ ascii "/posix/etc" := by
  constructor
  · intro hother entry hentry hentryPath
    apply hother ⟨ascii "etc", entry.listedType⟩ _ rfl
    rw [mem_children_iff, hpath]
    exact ⟨entry, hentry, (isChild_etc_iff rfl).mpr hentryPath, rfl⟩
  · intro hnone child hchild hname
    rw [mem_children_iff, hpath] at hchild
    obtain ⟨entry, hentry, hentryChild, -⟩ := hchild
    exact hnone entry hentry ((isChild_etc_iff hname).mp hentryChild)

/-- The first page is large enough for the synthetic directory, and no entry of the
archive has its name; or the archive has this directory itself, and the synthetic one
does not fit. -/
def ShowsEtcOnce (initrd : FacetInitrd) (posix : InitrdEntry) (first : ℕ) : Prop :=
  ((children initrd posix).length < first ∧
      ∀ entry ∈ initrd.entries, entry.path ≠ ascii "/posix/etc") ∨
    (first ≤ (children initrd posix).length ∧
      ∃ entry ∈ initrd.entries, entry.path = ascii "/posix/etc" ∧ entry.directory = true)

instance (initrd : FacetInitrd) (posix : InitrdEntry) (first : ℕ) :
    Decidable (ShowsEtcOnce initrd posix first) :=
  inferInstanceAs (Decidable (_ ∨ _))

/-- Following the pages of `/posix` always ends.  It lists the children and the
synthetic directory, each name once, exactly when the first page has room behind all
children and the archive has no `/posix/etc`, or has no room and the archive has the
directory.  The pages of the synthetic directory list its three files. -/
theorem credential_listing_iff (store : CredentialFileStore) (posix : InitrdEntry)
    (hpath : posix.path = ascii "/posix") (hdirectory : posix.directory = true)
    (haccess : checkAccess store.credentials posix 5 = .ok ())
    (sizes : ℕ → ℕ) (hsizes : ∀ index, 0 < sizes index) :
    (∃ listed,
      (∀ count, (children store.initrd posix).length < count →
        follow (credentialPage store (.backing posix)) ((List.range count).map sizes) 0 =
          .ok (listed, true)) ∧
        (listed.Perm (shownChildren store.initrd posix) ↔
          ShowsEtcOnce store.initrd posix (sizes 0))) ∧
      ∀ count, 3 < count →
        follow (credentialPage store (.synthetic .etcDirectory)) ((List.range count).map sizes)
          0 = .ok (etcEntries, true) := by
  refine ⟨⟨_, fun count => follow_credentialPage hpath hdirectory haccess hsizes, ?_⟩,
    fun count hcount => follow_range (enumerates_etc store) hsizes hcount⟩
  rw [ShowsEtcOnce]
  by_cases hroom : (children store.initrd posix).length < sizes 0
  · rw [if_pos hroom, perm_shownChildren_append_iff, forall_name_ne_etc_iff hpath]
    simp [hroom, Nat.not_le.mpr hroom]
  · rw [if_neg hroom, List.append_nil, perm_shownChildren_iff, etcChild_mem_children_iff hpath]
    simp [hroom, Nat.not_lt.mp hroom]

/-- The directory `/posix` of an archive, and an archive with one file in it. -/
def posixEntry : InitrdEntry := ⟨ascii "/posix", [], true, 0o040755, 0, 0⟩

def posixArchive : FacetInitrd :=
  (FacetInitrd.rootOnly.append posixEntry ⟨rfl, by decide⟩ (by decide)).append
    ⟨ascii "/posix/motd", [7], false, 0o100644, 0, 0⟩ ⟨rfl, by decide⟩ (by decide)

def posixStore : CredentialFileStore :=
  ⟨posixArchive, ⟨0, 0, true⟩, defaultPasswd, defaultShadow, []⟩

/-- Two entries fit one page. -/
theorem credential_listing_pair :
    ∃ listed, follow (credentialPage posixStore (.backing posixEntry)) [2, 2] 0 =
        .ok (listed, true) ∧
      listed.Perm [⟨ascii "etc", .directory⟩, ⟨ascii "motd", .file⟩] := by
  obtain ⟨listed, hfollow, hiff⟩ :=
    (credential_listing_iff posixStore posixEntry rfl rfl rfl (fun _ => 2)
      (fun _ => Nat.two_pos)).1
  exact ⟨listed, hfollow 2 (by decide), hiff.mpr (by decide)⟩

/-- Fetched one by one, the entries do not show the synthetic directory. -/
theorem credential_listing_loses_etc :
    follow (credentialPage posixStore (.backing posixEntry)) [1, 1, 1] 0 =
      .ok ([⟨ascii "motd", .file⟩], true) := by
  decide

end FacetOS.FileView
