import FacetOS.FileView.Store

/-!
# What a search visits

An archive node is only found under a canonical path, so its ancestors are
canonical as well and resolve to themselves.  A search of the node therefore
asks for permission on every archive directory above it, and it reaches such a
directory through shorter paths only.
-/

namespace FacetOS.FileView

open Initrd Paths
open Rpc (FacetError)

variable {path rest left right output : List UInt8} {initrd : FacetInitrd}

/-! ## Canonical paths -/

/-- A canonical path cut before a separator is the path of an ancestor. -/
theorem intercalate_split {names : List (List UInt8)} (hnames : NameStack names)
    (hsplit : [slash].intercalate names = left ++ slash :: right) :
    ∃ count, 0 < count ∧ count < names.length
      ∧ left = [slash].intercalate (names.take count) := by
  induction names generalizing left with
  | nil => simp at hsplit
  | cons first rest ih =>
    have hfirst : slash ∉ first := (hnames first (by simp)).1.2
    cases rest with
    | nil =>
      rw [List.intercalate_singleton] at hsplit
      exact absurd (by simp [hsplit]) hfirst
    | cons second rest =>
      rw [List.intercalate_cons_cons, List.append_assoc, List.singleton_append] at hsplit
      cases List.append_eq_append_iff.mp hsplit with
      | inl hlonger =>
        obtain ⟨middle, hleft, htail⟩ := hlonger
        cases middle with
        | nil => exact ⟨1, by simp [hleft]⟩
        | cons byte middle =>
          rw [List.cons_append, List.cons.injEq] at htail
          obtain ⟨rfl, hinner⟩ := htail
          have hrest : NameStack (second :: rest) :=
            fun name hname => hnames name (List.mem_cons_of_mem _ hname)
          obtain ⟨count, hpositive, hcount, hmiddle⟩ := ih hrest hinner
          refine ⟨count + 1, by omega, by simpa using hcount, ?_⟩
          obtain ⟨count, rfl⟩ : ∃ less, count = less + 1 := ⟨count - 1, by omega⟩
          rw [hleft, hmiddle]
          simp only [List.take_succ_cons, List.intercalate_cons_cons]
          simp
      | inr hshorter =>
        obtain ⟨middle, hfirstSplit, htail⟩ := hshorter
        cases middle with
        | nil => exact ⟨1, by simp [hfirstSplit]⟩
        | cons byte middle =>
          rw [List.cons_append, List.cons.injEq] at htail
          exact absurd (by simp [hfirstSplit, htail.1]) hfirst

theorem absolutePath_split {stack : List (List UInt8)} (hstack : NameStack stack)
    (hleft : left ≠ []) (hsplit : absolutePath stack = left ++ slash :: right) :
    ∃ count, 0 < count ∧ count < stack.length ∧ left = absolutePath (stack.take count) := by
  obtain ⟨byte, left, rfl⟩ := List.exists_cons_of_ne_nil hleft
  rw [absolutePath, rendered, List.singleton_append, List.cons_append, List.cons.injEq] at hsplit
  obtain ⟨count, hpositive, hcount, htake⟩ := intercalate_split hstack hsplit.2
  exact ⟨count, hpositive, hcount, by
    rw [absolutePath, rendered, List.singleton_append, htake, hsplit.1]⟩

/-! ## Lookups by canonical path -/

/-- A resolved path never exceeds the limit. -/
theorem length_resolvePath {base : List UInt8} {requiresDirectory : Bool}
    (hbase : base.length ≤ facetPathMax)
    (hresolve : resolvePath base path = .ok (output, requiresDirectory)) :
    output.length ≤ facetPathMax := by
  have hkeeps : ∀ component ∈ components slash path, ∀ before after : List UInt8,
      before.length ≤ facetPathMax → resolveStep before component = .ok after →
        after.length ≤ facetPathMax := by
    intro component _ before after hbefore hstep
    rw [resolveStep_eq hbefore] at hstep
    split_ifs at hstep with hfits
    exact Except.ok.inj hstep ▸ hfits
  have hstart : (if path.head? = some slash then [slash] else base).length ≤ facetPathMax := by
    split
    · decide
    · exact hbase
  exact (Passes.foldlM_keeps hkeeps hstart (resolvePath_eq_ok hresolve).2.2.2 :)

/-- A path that a caller can only reach in canonical form. -/
structure CanonicalPath (path : List UInt8) : Prop where
  rendered : ∃ stack, NameStack stack ∧ path = absolutePath stack
  terminated : 0 ∉ path
  fits : path.length ≤ facetPathMax

theorem canonicalPath_root : CanonicalPath [slash] :=
  ⟨⟨[], by simp [NameStack], rfl⟩, by decide, by decide⟩

theorem zero_not_mem_walk {stack : List (List UInt8)} (hstack : ∀ name ∈ stack, (0 : UInt8) ∉ name)
    (hpath : 0 ∉ path) : 0 ∉ absolutePath (walk dot stack (components slash path)) := by
  intro hzero
  rcases List.mem_append.mp hzero with hlead | hparts
  · simp [slash] at hlead
  rcases mem_intercalate hparts with hslash | ⟨name, hname, hmem⟩
  · simp [slash] at hslash
  rcases mem_walk hname with hold | hnew
  · exact hstack name hold hmem
  · exact hpath (mem_of_mem_components hnew hmem)

/-- What is resolved is canonical again. -/
theorem canonicalPath_of_resolvePath {base : List UInt8} {requiresDirectory : Bool}
    (hbase : CanonicalPath base)
    (hresolve : resolvePath base path = .ok (output, requiresDirectory)) :
    CanonicalPath output := by
  have hfits := length_resolvePath hbase.fits hresolve
  obtain ⟨stack, hstack, rfl⟩ := hbase.rendered
  obtain rfl := resolvePath_ok hstack hresolve
  refine ⟨⟨_, names_walk ?_ fun _ hpart => component_of_mem_components hpart, rfl⟩,
    zero_not_mem_walk ?_ (resolvePath_eq_ok hresolve).2.1, hfits⟩
  · split
    · exact List.forall_mem_nil _
    · exact hstack
  · split
    · exact List.forall_mem_nil _
    · rw [← components_absolutePath hstack]
      exact fun _ hname hzero => hbase.terminated (mem_of_mem_components hname hzero)

section

variable {directory : Bool} {entry : InitrdEntry}
  (hopen : facetInitrdOpenNode initrd [slash] path directory = .ok entry)
include hopen

theorem facetInitrdOpenNode_ok :
    ∃ requiresDirectory, resolvePath [slash] path = .ok (entry.path, requiresDirectory)
      ∧ (requiresDirectory && !directory) = false
      ∧ findEntry initrd entry.path directory = some entry := by
  unfold facetInitrdOpenNode at hopen
  cases hresolve : resolvePath [slash] path with
  | error failure => simp [hresolve] at hopen
  | ok resolved =>
    obtain ⟨output, requiresDirectory⟩ := resolved
    simp only [hresolve] at hopen
    by_cases hkind : (requiresDirectory && !directory) = true
    · simp [hkind, foundNode] at hopen
    have hfalse : (requiresDirectory && !directory) = false := Bool.eq_false_iff.mpr hkind
    cases hfind : findEntry initrd output directory with
    | none => simp [hfalse, hfind, foundNode] at hopen
    | some found =>
      simp only [hfalse, hfind, foundNode] at hopen
      obtain rfl := Except.ok.inj hopen
      obtain ⟨-, rfl, -⟩ := findEntry_some hfind
      exact ⟨requiresDirectory, rfl, hfalse, hfind⟩

theorem canonicalPath_of_open : CanonicalPath entry.path := by
  obtain ⟨requiresDirectory, hresolve, -⟩ := facetInitrdOpenNode_ok hopen
  exact canonicalPath_of_resolvePath canonicalPath_root hresolve

end

theorem absolutePath_eq_root_iff {stack : List (List UInt8)} (hstack : NameStack stack) :
    absolutePath stack = [slash] ↔ stack = [] := by
  constructor
  · intro hpath
    exact absolutePath_injective hstack (by simp [NameStack]) hpath
  · rintro rfl
    rfl

theorem CanonicalPath.resolvePath_eq {base : List UInt8} (hpath : CanonicalPath path)
    (hbase : base.head? = some slash) :
    resolvePath base path = .ok (path, decide (path = [slash])) := by
  obtain ⟨stack, hstack, rfl⟩ := hpath.rendered
  rw [resolvePath_absolutePath hbase hstack hpath.terminated hpath.fits]
  simp only [absolutePath_eq_root_iff hstack]

/-- A canonical directory path is looked up as it stands. -/
theorem facetInitrdOpenNode_directory (initrd : FacetInitrd) (hpath : CanonicalPath path) :
    facetInitrdOpenNode initrd [slash] path true = foundNode (findEntry initrd path true) := by
  have hbase : [slash].head? = some slash := rfl
  simp [facetInitrdOpenNode, hpath.resolvePath_eq hbase]

/-- The part of a canonical path before a separator is canonical. -/
theorem CanonicalPath.ancestor (hleft : left ≠ [])
    (hpath : CanonicalPath (left ++ slash :: right)) : CanonicalPath left := by
  obtain ⟨stack, hstack, hrendered⟩ := hpath.rendered
  obtain ⟨count, -, -, htake⟩ := absolutePath_split hstack hleft hrendered.symm
  refine ⟨⟨stack.take count, fun _ hname => hstack _ (List.mem_of_mem_take hname), htake⟩, ?_, ?_⟩
  · exact fun hzero => hpath.terminated (List.mem_append_left _ hzero)
  · have hlength := hpath.fits
    rw [List.length_append] at hlength
    omega

/-! ## The visited directories -/

/-- The scan of a path goes through the scan of every leading part of it that
ends before a separator, and then emits that part. -/
theorem searchPrefixes_append_slash (hlast : left.getLast? ≠ some slash) (hleft : left ≠ [])
    (passed : List UInt8) (inside : Bool) (right : List UInt8) :
    searchPrefixes passed inside (left ++ slash :: right)
      = searchPrefixes passed inside left
        ++ (passed ++ left) :: searchPrefixes (passed ++ left ++ [slash]) false right := by
  induction left generalizing passed inside with
  | nil => exact absurd rfl hleft
  | cons byte left ih =>
    cases left with
    | nil =>
      have hbyte : byte ≠ slash := fun heq => hlast (by simp [heq])
      simp [searchPrefixes, hbyte]
    | cons second left =>
      have hinner : (second :: left).getLast? ≠ some slash := by
        simpa [List.getLast?_cons_cons] using hlast
      rw [List.cons_append, searchPrefixes, ih hinner (by simp),
        searchPrefixes.eq_2 passed inside byte (second :: left)]
      simp only [List.append_assoc, List.singleton_append]

/-- What the scan emits begins with what was passed and is followed by a separator. -/
theorem isPrefix_of_mem_searchPrefixes {passed shorter : List UInt8} {inside : Bool}
    (hmem : shorter ∈ searchPrefixes passed inside rest) :
    passed <+: shorter ∧ shorter ++ [slash] <+: passed ++ rest := by
  induction rest generalizing passed inside with
  | nil => simp [searchPrefixes] at hmem
  | cons byte rest ih =>
    rw [searchPrefixes] at hmem
    cases List.mem_append.mp hmem with
    | inl hpassed =>
      split at hpassed
      · rename_i hslash
        rw [List.mem_singleton.mp hpassed, hslash.1]
        exact ⟨List.prefix_refl _, rest, by simp⟩
      · simp at hpassed
    | inr hlater =>
      obtain ⟨hstart, hscan⟩ := ih hlater
      exact ⟨(List.prefix_append passed [byte]).trans hstart, by simpa using hscan⟩

theorem isPrefix_of_mem_ancestorPaths {ancestor : List UInt8}
    (hmem : ancestor ∈ ancestorPaths path) : ancestor ++ [slash] <+: path := by
  have hscan := (isPrefix_of_mem_searchPrefixes hmem).2
  rwa [List.take_append_drop] at hscan

theorem pathBelow_some {directory : List UInt8} (hroot : directory ≠ [slash])
    (hbelow : pathBelow directory path = some rest) : path = directory ++ slash :: rest := by
  unfold pathBelow at hbelow
  rw [if_neg hroot] at hbelow
  dsimp only at hbelow
  split at hbelow
  · rename_i hparts
    obtain ⟨htake, hhead, -⟩ := hparts
    obtain ⟨byte, tail, hdrop⟩ : ∃ byte tail, path.drop directory.length = byte :: tail :=
      List.exists_cons_of_ne_nil (fun hempty => by simp [hempty] at hhead)
    rw [hdrop] at hhead hbelow
    have hbyte : byte = slash := by simpa using hhead
    have htail : tail = rest := by simpa using hbelow
    calc path = path.take directory.length ++ path.drop directory.length :=
          (List.take_append_drop _ _).symm
      _ = directory ++ slash :: rest := by rw [htake, hdrop, hbyte, htail]
  · contradiction

theorem CanonicalPath.absolute (hpath : CanonicalPath path) :
    path.head? = some slash := by
  obtain ⟨stack, -, rfl⟩ := hpath.rendered
  exact head?_absolutePath stack

theorem getLast?_absolutePath_ne {stack : List (List UInt8)} (hstack : NameStack stack)
    (hne : stack ≠ []) : (absolutePath stack).getLast? ≠ some slash := by
  intro hlast
  have hfile := pathRequiresDirectory_absolutePath hstack
  simp [pathRequiresDirectory, hlast, hne] at hfile

theorem CanonicalPath.getLast?_ne (hpath : CanonicalPath path) (hroot : path ≠ [slash]) :
    path.getLast? ≠ some slash := by
  obtain ⟨stack, hstack, rfl⟩ := hpath.rendered
  exact getLast?_absolutePath_ne hstack fun heq => hroot (heq ▸ rfl)

/-- The ancestors of a canonical path are canonical. -/
theorem CanonicalPath.of_mem_ancestorPaths {ancestor : List UInt8} (hpath : CanonicalPath path)
    (hmem : ancestor ∈ ancestorPaths path) :
    CanonicalPath ancestor := by
  have hempty : ancestor ≠ [] := by
    have hstart := (isPrefix_of_mem_searchPrefixes hmem).1
    intro heq
    rw [heq, List.prefix_nil] at hstart
    have habsolute := hpath.absolute
    cases path with
    | nil => simp at habsolute
    | cons byte rest => simp at hstart
  obtain ⟨rest, hrest⟩ := isPrefix_of_mem_ancestorPaths hmem
  rw [List.append_assoc, List.singleton_append] at hrest
  exact CanonicalPath.ancestor hempty (hrest ▸ hpath)

/-- A search of a node below a directory first searches that directory's
ancestors, and then the directory. -/
theorem searchedPaths_below {directory : List UInt8} (hroot : directory ≠ [slash])
    (hempty : directory ≠ []) (hpath : CanonicalPath (directory ++ slash :: rest))
    (includeTarget : Bool) :
    ∃ after, searchedPaths (directory ++ slash :: rest) includeTarget
      = searchedPaths directory false ++ directory :: after := by
  have hcanonical := hpath.ancestor hempty
  obtain ⟨byte, left, rfl⟩ := List.exists_cons_of_ne_nil hempty
  have hbyte : byte = slash := by simpa using hcanonical.absolute
  subst hbyte
  have hleft : left ≠ [] := fun heq => hroot (by rw [heq])
  have hlast : left.getLast? ≠ some slash := by
    have hwhole := hcanonical.getLast?_ne hroot
    rwa [List.getLast?_cons_of_ne_nil hleft] at hwhole
  have hscan := searchPrefixes_append_slash hlast hleft [slash] false rest
  refine ⟨searchPrefixes ((slash :: left) ++ [slash]) false rest
    ++ (if includeTarget ∧ 1 < ((slash :: left) ++ slash :: rest).length
      then [(slash :: left) ++ slash :: rest] else []), ?_⟩
  simp only [searchedPaths, ancestorPaths, List.cons_append, List.take_succ_cons, List.take_zero,
    List.drop_succ_cons, List.drop_zero, hscan]
  simp

/-! ## Refusal -/

/-- A directory of the archive that these credentials may not search. -/
structure Unsearchable (initrd : FacetInitrd) (credentials : Credentials)
    (directory : InitrdEntry) : Prop where
  stored : directory ∈ initrd.entries
  isDirectory : directory.directory = true
  refused : modeAllows directory.mode directory.uid directory.gid credentials.uid
    credentials.gid credentials.admin 1 = false

variable {credentials : Credentials} {directory : InitrdEntry}
  (hdirectory : Unsearchable initrd credentials directory)
include hdirectory

theorem Unsearchable.checkSearchStep_eq (hpath : CanonicalPath directory.path) :
    checkSearchStep initrd credentials directory.path = .error .accessDenied := by
  have hfind : findEntry initrd directory.path true = some directory :=
    findEntry_eq_some_iff.mpr ⟨hdirectory.stored, rfl, hdirectory.isDirectory⟩
  rw [checkSearchStep, facetInitrdOpenNode_directory initrd hpath, hfind]
  simp [foundNode, checkAccess, hdirectory.refused]

/-- Nothing below an unsearchable directory passes a search. -/
theorem Unsearchable.checkSearch_ne_ok (hpath : CanonicalPath path)
    (hbelow : pathBelow directory.path path = some rest) (includeTarget : Bool) :
    checkSearch initrd credentials path includeTarget ≠ .ok () := by
  intro hsearch
  rw [checkSearch, if_neg (by simp [hpath.absolute])] at hsearch
  by_cases hroot : directory.path = [slash]
  · have hvisited : checkSearchStep initrd credentials [slash] = .ok () :=
      checkAll_ok hsearch (by simp [searchedPaths])
    have hrefused := hdirectory.checkSearchStep_eq (hroot ▸ canonicalPath_root)
    rw [hroot, hvisited] at hrefused
    contradiction
  · have hsplit := pathBelow_some hroot hbelow
    subst hsplit
    have hempty : directory.path ≠ [] := by
      intro heq
      simpa [heq] using (initrd.stored directory hdirectory.stored).absolute
    obtain ⟨after, hsearched⟩ := searchedPaths_below hroot hempty hpath includeTarget
    have hvisited : checkSearchStep initrd credentials directory.path = .ok () :=
      checkAll_ok hsearch (by simp [hsearched])
    rw [hdirectory.checkSearchStep_eq (hpath.ancestor hempty)] at hvisited
    contradiction

end FacetOS.FileView
