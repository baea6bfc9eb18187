import FacetOS.FileView.Nodes

/-!
# Credential views against the plain archive

An administrator who may search every directory should find in a credential
view what the archive's own store and directories find, outside the synthetic
`/posix/etc`.  The views differ in three places.  They refuse a node whose
parent directories the archive leaves out, the credential directory reads its
path as a C string without the archive's length limit and forgets a trailing
separator, and the credential store recognises synthetic nodes by one spelling.
-/

namespace FacetOS.FileView

open Initrd Paths
open Rpc (FacetError)
open Config (FacetConfigUser)

/-! ## The plain views -/

variable (initrd : FacetInitrd)

/-- `store_open_file` and `store_open_directory` of the archive. -/
def storeOpenEntry (path : List UInt8) (directory : Bool) : Except FacetError InitrdEntry :=
  facetInitrdOpenNode initrd [slash] path directory

/-- `directory_open_file` and `directory_open_directory` of the archive: the
resolved path goes through the store. -/
def directoryOpenEntry (base path : List UInt8) (directory : Bool) :
    Except FacetError InitrdEntry :=
  match resolvePath base path with
  | .error failure => .error failure
  | .ok (resolved, requiresDirectory) =>
    if requiresDirectory && !directory then .error .notFound
    else storeOpenEntry initrd resolved directory

/-- The resolved path names the synthetic directory or something below it. -/
def WithinEtc (resolved : List UInt8) : Prop :=
  resolved = ascii "/posix/etc" ∨ (ascii "/posix/etc/") <+: resolved

instance (resolved : List UInt8) : Decidable (WithinEtc resolved) :=
  inferInstanceAs (Decidable (_ ∨ _))

/-- The path resolves into the synthetic directory. -/
def ResolvesIntoEtc (base path : List UInt8) : Prop :=
  ∃ resolved requiresDirectory,
    resolvePath base path = .ok (resolved, requiresDirectory) ∧ WithinEtc resolved

/-! ## Searching as an administrator -/

/-- The archive has a directory for each ancestor of the path. -/
def Rooted (path : List UInt8) : Prop :=
  ∀ ancestor ∈ ancestorPaths path, (findEntry initrd ancestor true).isSome

instance (initrd : FacetInitrd) (path : List UInt8) : Decidable (Rooted initrd path) :=
  inferInstanceAs (Decidable (∀ ancestor ∈ ancestorPaths path, _))

/-- Somebody may search each directory. -/
def Executable : Prop :=
  ∀ entry ∈ initrd.entries, entry.directory = true → entry.mode &&& 0o111 ≠ 0

instance (initrd : FacetInitrd) : Decidable (Executable initrd) :=
  inferInstanceAs (Decidable (∀ entry ∈ initrd.entries, _))

/-- An entry that a search can reach. -/
def reachable (path : List UInt8) (directory : Bool) : Option InitrdEntry :=
  if Rooted initrd path then findEntry initrd path directory else none

variable {path resolved base : List UInt8} {requiresDirectory directory : Bool}
  {entry : InitrdEntry} {store : CredentialFileStore}

section Search

variable {initrd : FacetInitrd} {credentials : Credentials}
variable (hexecutable : Executable initrd) (hadmin : credentials.admin = true)
include hexecutable hadmin

theorem searchable_of_found (hfind : findEntry initrd path true = some entry) :
    Searchable initrd credentials path := by
  obtain ⟨hmem, -, hdirectory⟩ := findEntry_some hfind
  have hmode := hexecutable entry hmem hdirectory
  exact ⟨entry, hfind, by simp [modeAllows, hadmin, hmode]⟩

/-- Each directory on the way is there, or the search stops at a missing one. -/
theorem checkSearchStep_admin (hpath : CanonicalPath path) :
    checkSearchStep initrd credentials path
      = if (findEntry initrd path true).isSome then .ok () else .error .notFound := by
  cases hfind : findEntry initrd path true with
  | none =>
    rw [(checkSearchStep_eq_notFound_iff hpath).mpr hfind]
    rfl
  | some entry =>
    rw [(checkSearchStep_eq_ok_iff hpath).mpr (searchable_of_found hexecutable hadmin hfind)]
    rfl

theorem checkAll_admin {paths : List (List UInt8)} (hpaths : ∀ path ∈ paths, CanonicalPath path) :
    checkAll (checkSearchStep initrd credentials) paths
      = if ∀ path ∈ paths, (findEntry initrd path true).isSome then .ok ()
        else .error .notFound := by
  induction paths with
  | nil => simp [checkAll]
  | cons path paths ih =>
    rw [checkAll, checkSearchStep_admin hexecutable hadmin (hpaths path List.mem_cons_self)]
    cases hfind : findEntry initrd path true <;>
      simp [hfind, ih fun other hother => hpaths other (List.mem_cons_of_mem _ hother)]

/-- The search of a found node only asks for its ancestors. -/
theorem checkSearch_admin (hpath : CanonicalPath path)
    (hfind : findEntry initrd path directory = some entry) :
    checkSearch initrd credentials path directory
      = if Rooted initrd path then .ok () else .error .notFound := by
  have hvisited : ∀ visited ∈ searchedPaths path directory, CanonicalPath visited := by
    intro visited hmem
    simp only [searchedPaths, List.mem_cons, List.cons_append, List.mem_append] at hmem
    rcases hmem with hroot | hancestor | htarget
    · exact hroot ▸ canonicalPath_root
    · exact hpath.of_mem_ancestorPaths hancestor
    · split at htarget
      · exact List.mem_singleton.mp htarget ▸ hpath
      · contradiction
  have hroot : findEntry initrd [slash] true = some rootEntry :=
    findEntry_eq_some_iff.mpr ⟨List.mem_of_head? initrd.rootFirst, rfl, rfl⟩
  have hall : (∀ visited ∈ searchedPaths path directory, (findEntry initrd visited true).isSome)
      ↔ Rooted initrd path := by
    unfold searchedPaths Rooted
    cases directory with
    | false => simp [hroot]
    | true =>
      by_cases hlong : 1 < path.length
      · simp [hroot, hlong, hfind, or_imp, forall_and]
      · simp [hroot, hlong]
  rw [checkSearch, if_neg (by simp [hpath.absolute]),
    checkAll_admin hexecutable hadmin hvisited, if_congr hall rfl rfl]

end Search

/-! ## Opening as an administrator -/

/-- What a path leads to once it has been resolved: the registered node or the
entry, if a search can reach it. -/
def archivedOutcome (store : CredentialFileStore) (resolved : List UInt8)
    (requiresDirectory directory : Bool) : Except FacetError NodeTarget :=
  match if requiresDirectory && !directory then none
      else reachable store.initrd resolved directory with
  | none => .error .notFound
  | some entry =>
    .ok ((registered store resolved directory).elim (.backing entry) CredentialNode.target)

/-- What the plain view answers for a resolved path. -/
def plainOutcome (initrd : FacetInitrd) (resolved : List UInt8)
    (requiresDirectory directory : Bool) : Except FacetError NodeTarget :=
  (foundNode (if requiresDirectory && !directory then none
    else findEntry initrd resolved directory)).map .backing

theorem withinEtc_synthetic (node : SyntheticNode) : WithinEtc node.path := by
  cases node with
  | etcDirectory => exact .inl rfl
  | passwd => exact .inr ⟨ascii "passwd", rfl⟩
  | shadow => exact .inr ⟨ascii "shadow", rfl⟩
  | fstab => exact .inr ⟨ascii "fstab", rfl⟩

/-- Outside the synthetic directory the registered node is the archive's entry. -/
theorem SoundStore.registered_outside (hsound : SoundStore store) (houtside : ¬WithinEtc resolved)
    (hfind : findEntry store.initrd resolved directory = some entry) :
    (registered store resolved directory).elim (.backing entry) CredentialNode.target
      = .backing entry := by
  cases hnode : registered store resolved directory with
  | none => rfl
  | some node =>
    obtain ⟨hmem, rfl, rfl⟩ := registered_some hnode
    have hstands := hsound.stands node hmem
    rw [Option.elim_some]
    unfold CredentialNode.path at hfind houtside
    cases htarget : node.target with
    | synthetic other =>
      rw [htarget] at houtside
      exact absurd (withinEtc_synthetic other) houtside
    | backing other =>
      rw [htarget] at hstands hfind
      rw [Option.some.inj (hfind.symm.trans hstands.1)]

/-! ## The store -/

/-- The path is no synthetic name up to its first zero byte, and what it opens
has its parent directories in the archive. -/
def StoreAgrees (initrd : FacetInitrd) (path : List UInt8) (directory : Bool) : Prop :=
  syntheticForPath (cString path) directory = none
    ∧ ∀ resolved requiresDirectory,
      resolvePath [slash] path = .ok (resolved, requiresDirectory) →
      (requiresDirectory && !directory) = false →
      findEntry initrd resolved directory ≠ none → Rooted initrd resolved

theorem canonicalPath_normalizeCandidate {candidate : List UInt8}
    (hfits : (normalizeCandidate candidate).length ≤ facetPathMax) :
    CanonicalPath (normalizeCandidate candidate) :=
  ⟨⟨walked (cString candidate), names_walk (List.forall_mem_nil _) fun _ hpart =>
      component_of_mem_components hpart, normalizeCandidate_eq candidate⟩,
    zero_not_mem_normalizeCandidate candidate, hfits⟩

theorem canonicalPath_synthetic (node : SyntheticNode) : CanonicalPath node.path := by
  have hnormal : normalizeCandidate node.path = node.path := by cases node <;> decide
  have hfits : node.path.length ≤ facetPathMax := by cases node <;> decide
  rw [← hnormal] at hfits ⊢
  exact canonicalPath_normalizeCandidate hfits

/-- A synthetic name resolves to itself. -/
theorem resolvePath_synthetic
    (hresolve : resolvePath [slash] path = .ok (resolved, requiresDirectory))
    {node : SyntheticNode} (hnode : syntheticForPath path directory = some node) :
    resolved = node.path ∧ requiresDirectory = false := by
  obtain ⟨rfl, -⟩ := syntheticForPath_some hnode
  rw [(canonicalPath_synthetic node).resolvePath_eq rfl] at hresolve
  obtain ⟨rfl, rfl⟩ := Prod.mk.inj (Except.ok.inj hresolve)
  exact ⟨rfl, by cases node <;> decide⟩

theorem resolvePath_error {failure : FacetError}
    (hresolve : resolvePath base path = .error failure) : failure = .invalidArgument := by
  have hfold : ∀ (parts : List (List UInt8)) (start : List UInt8),
      parts.foldlM resolveStep start = .error failure → failure = .invalidArgument := by
    intro parts start hfails
    induction parts generalizing start with
    | nil => cases hfails
    | cons part parts ih =>
      rw [List.foldlM_cons] at hfails
      cases hstep : resolveStep start part <;> rw [hstep] at hfails
      case ok next => exact ih next hfails
      cases hfails
      unfold resolveStep at hstep
      split_ifs at hstep
      exact (Except.error.inj hstep).symm
  unfold resolvePath at hresolve
  iterate 2
    split at hresolve
    · exact (Except.error.inj hresolve).symm
  cases hparts : (components slash path).foldlM resolveStep
      (if path.head? = some slash then [slash] else base) <;> simp only [hparts] at hresolve
  case ok => cases hresolve
  obtain rfl := Except.error.inj hresolve
  exact hfold _ _ hparts

/-! ## Directories -/

/-- The node at the resolved path has its parent directories in the archive; a
spelling that only fits a directory names no such file; and a path that the
archive refuses is empty or leads to a path beyond the length limit. -/
def DirectoryAgrees (initrd : FacetInitrd) (base path : List UInt8) (directory : Bool) : Prop :=
  match resolvePath base path with
  | .error _ =>
    path = [] ∨ facetPathMax
      < (absolutePath (walked (cString (candidatePath base path)))).length
  | .ok (resolved, requiresDirectory) =>
    if requiresDirectory && !directory then reachable initrd resolved directory = none
    else findEntry initrd resolved directory ≠ none → Rooted initrd resolved

theorem findEntry_root_file (initrd : FacetInitrd) : findEntry initrd [slash] false = none := by
  refine Option.eq_none_iff_forall_ne_some.mpr fun entry hfind => ?_
  obtain ⟨hmem, hpath, hkind⟩ := findEntry_some hfind
  have hentry : entry = rootEntry :=
    List.inj_on_of_nodup_map initrd.distinct hmem (List.mem_of_head? initrd.rootFirst) hpath
  rw [hentry] at hkind
  exact absurd hkind (by decide)

/-- Resolving twice changes nothing. -/
theorem directoryOpenEntry_eq (initrd : FacetInitrd) (hbase : CanonicalPath base)
    (directory : Bool) (hresolve : resolvePath base path = .ok (resolved, requiresDirectory)) :
    (directoryOpenEntry initrd base path directory).map NodeTarget.backing
      = plainOutcome initrd resolved requiresDirectory directory := by
  have hcanonical := canonicalPath_of_resolvePath hbase hresolve
  rw [directoryOpenEntry, hresolve, plainOutcome]
  dsimp only
  split
  · rfl
  rw [storeOpenEntry, facetInitrdOpenNode, hcanonical.resolvePath_eq rfl]
  by_cases hroot : resolved = [slash]
  · cases directory with
    | true => simp
    | false => simp [hroot, findEntry_root_file]
  · simp [hroot]

theorem SoundStore.canonicalPath (hsound : SoundStore store)
    {node : CredentialNode} (hnode : node ∈ store.nodes) : CanonicalPath node.path := by
  have hstands := hsound.stands node hnode
  unfold CredentialNode.path
  cases htarget : node.target with
  | backing entry =>
    rw [htarget] at hstands
    exact hstands.2
  | synthetic other => exact canonicalPath_synthetic other

theorem SoundStore.openFrom_eq (hsound : SoundStore store)
    {node : CredentialNode} (hnode : node ∈ store.nodes) (hkind : node.directory = true)
    (path : List UInt8) (directory : Bool) :
    FileView.openFrom store node.handle path directory
      = FileView.directoryOpen store node.path path directory := by
  have hfound : withNode store node.handle (some true) (fun found => .ok found.path)
      = .ok node.path := hsound.withNode_eq hnode (by simp [hkind]) _
  rw [FileView.openFrom, hfound]

variable (store)

theorem openNode_long (hlong : facetPathMax < path.length) :
    openNode store path path directory = (.error .invalidArgument, store) := by
  have hnone : syntheticForPath path directory = none := by
    refine Option.eq_none_iff_forall_ne_some.mpr fun node hnode => ?_
    have hfits := (canonicalPath_synthetic node).fits
    rw [← (syntheticForPath_some hnode).1] at hfits
    omega
  have hresolve : resolvePath [slash] path = .error .invalidArgument := by
    rw [resolvePath, if_pos (.inr (.inr (.inl hlong)))]
  simp [openNode, hnone, openArchived, facetInitrdOpenNode, hresolve]

/-! ## Spellings -/

/-- Both spellings are synthetic names, or neither is and a file that can be reached is
asked for by both or by none with a trailing separator; or the store has a node for the
path already, and the archive would give it out for either spelling. -/
def SpellingsAgree (left right resolved : List UInt8)
    (leftKind rightKind directory : Bool) : Prop :=
  (syntheticForPath left directory = syntheticForPath right directory
      ∧ (syntheticForPath left directory ≠ none
        ∨ (leftKind && !directory) = (rightKind && !directory)
        ∨ reachable store.initrd resolved directory = none))
    ∨ (reachable store.initrd resolved directory ≠ none
      ∧ registered store resolved directory ≠ none
      ∧ ((leftKind || rightKind) && !directory) = false)

/-- Two paths that lead from a directory to one place are one path to it. -/
theorem directoryOpen_spelling {left right : List UInt8}
    {leftKind rightKind : Bool} (hbase : CanonicalPath base)
    (hleft : resolvePath base left = .ok (resolved, leftKind))
    (hright : resolvePath base right = .ok (resolved, rightKind)) (directory : Bool) :
    directoryOpen store base left directory = directoryOpen store base right directory := by
  have hnonempty : ∀ {path : List UInt8} {kind : Bool},
      resolvePath base path = .ok (resolved, kind) → path ≠ [] := by
    exact fun hresolve => (resolvePath_eq_ok hresolve).1
  rw [directoryOpen, directoryOpen, if_neg (hnonempty hleft), if_neg (hnonempty hright),
    normalizeCandidate_of_resolvePath hbase hleft, normalizeCandidate_of_resolvePath hbase hright]

/-- A synthetic name against another spelling of it. -/
theorem synthetic_spelling_iff (node : SyntheticNode) (kind directory : Bool) :
    (.ok ((registered store resolved directory).elim (.synthetic node) CredentialNode.target)
        = archivedOutcome store resolved kind directory)
      ↔ reachable store.initrd resolved directory ≠ none
        ∧ registered store resolved directory ≠ none ∧ (kind && !directory) = false := by
  unfold archivedOutcome
  cases kind && !directory <;> cases reachable store.initrd resolved directory <;>
    cases registered store resolved directory <;> simp

/-- Two spellings that are no synthetic names. -/
theorem archived_spelling_iff (leftKind rightKind directory : Bool) :
    archivedOutcome store resolved leftKind directory
        = archivedOutcome store resolved rightKind directory
      ↔ (leftKind && !directory) = (rightKind && !directory)
        ∨ reachable store.initrd resolved directory = none := by
  unfold archivedOutcome
  cases leftKind && !directory <;> cases rightKind && !directory <;>
    cases reachable store.initrd resolved directory <;> simp

variable {store}

/-! ## The views -/

section Administrator

variable (hsound : SoundStore store)
variable (hexecutable : Executable store.initrd) (hadmin : store.credentials.admin = true)
include hsound hexecutable hadmin

theorem designated_openArchived (directory : Bool)
    (hresolve : resolvePath [slash] path = .ok (resolved, requiresDirectory)) :
    designated (openArchived store path directory)
      = archivedOutcome store resolved requiresDirectory directory := by
  unfold openArchived archivedOutcome
  cases hopen : facetInitrdOpenNode store.initrd [slash] path directory with
  | error failure =>
    rw [facetInitrdOpenNode, hresolve] at hopen
    cases hkind : requiresDirectory && !directory <;> simp only [hkind] at hopen ⊢
    case true => cases hopen; rfl
    cases hfind : findEntry store.initrd resolved directory <;> rw [hfind] at hopen <;> cases hopen
    simp [designated, reachable, hfind]
  | ok entry =>
    obtain ⟨required, hresolved, hkind, hfind⟩ := facetInitrdOpenNode_ok hopen
    rw [hresolve] at hresolved
    obtain ⟨rfl, rfl⟩ := Prod.mk.inj (Except.ok.inj hresolved)
    have hpath := canonicalPath_of_open hopen
    simp only [hkind, reachable, hfind, checkSearch_admin hexecutable hadmin hpath hfind]
    by_cases hrooted : Rooted store.initrd entry.path
    · simp only [hrooted, if_true, Bool.false_eq_true, if_false]
      exact hsound.designated_wrapNode (stands_of_open hopen)
    · simp [hrooted, designated]

omit hexecutable hadmin in
theorem archivedOutcome_eq_plainOutcome_iff (houtside : ¬WithinEtc resolved)
    (requiresDirectory directory : Bool) :
    archivedOutcome store resolved requiresDirectory directory
        = plainOutcome store.initrd resolved requiresDirectory directory
      ↔ ((requiresDirectory && !directory) = false →
        findEntry store.initrd resolved directory ≠ none → Rooted store.initrd resolved) := by
  unfold archivedOutcome plainOutcome reachable
  cases requiresDirectory && !directory with
  | true => simp [foundNode, Except.map]
  | false =>
    cases hfind : findEntry store.initrd resolved directory with
    | none => simp [foundNode, Except.map]
    | some entry =>
      by_cases hrooted : Rooted store.initrd resolved <;>
        simp [hrooted, foundNode, Except.map, hsound.registered_outside houtside hfind]

theorem designated_storeOpen
    (hresolve : resolvePath [slash] path = .ok (resolved, requiresDirectory)) (directory : Bool) :
    designated (storeOpen store path directory)
      = match syntheticForPath path directory with
        | some node =>
          .ok ((registered store resolved directory).elim (.synthetic node)
            CredentialNode.target)
        | none => archivedOutcome store resolved requiresDirectory directory := by
  obtain ⟨hempty, hzero, -⟩ := resolvePath_eq_ok hresolve
  rw [storeOpen, if_neg hempty, openNode, cString_eq_self hzero]
  cases hnode : syntheticForPath path directory with
  | none => exact designated_openArchived hsound hexecutable hadmin directory hresolve
  | some node =>
    rw [(resolvePath_synthetic hresolve hnode).1]
    exact hsound.designated_wrapNode (stands_of_synthetic store.initrd hnode)

theorem storeOpen_agrees_iff (houtside : ¬ResolvesIntoEtc [slash] path) (directory : Bool) :
    designated (storeOpen store path directory)
        = (storeOpenEntry store.initrd path directory).map .backing
      ↔ StoreAgrees store.initrd path directory := by
  unfold storeOpenEntry StoreAgrees
  cases hresolve : resolvePath [slash] path with
  | error failure =>
    obtain rfl := resolvePath_error hresolve
    have hplain : facetInitrdOpenNode store.initrd [slash] path directory
        = .error .invalidArgument := by
      rw [facetInitrdOpenNode, hresolve]
    rw [hplain, storeOpen, openNode]
    by_cases hempty : path = []
    · simp [hempty, designated, Except.map, cString, syntheticForPath, ascii]
    · rw [if_neg hempty]
      cases hnode : syntheticForPath (cString path) directory with
      | none => simp [openArchived, hplain, designated, Except.map]
      | some node =>
        simp [hsound.designated_wrapNode (stands_of_synthetic store.initrd hnode),
          Except.map]
  | ok output =>
    obtain ⟨resolved, requiresDirectory⟩ := output
    have hwithin : ¬WithinEtc resolved := fun hwithin => houtside ⟨_, _, hresolve, hwithin⟩
    have hnone : syntheticForPath path directory = none :=
      Option.eq_none_iff_forall_ne_some.mpr fun node hnode =>
        hwithin ((resolvePath_synthetic hresolve hnode).1 ▸ withinEtc_synthetic node)
    rw [facetInitrdOpenNode, hresolve, designated_storeOpen hsound hexecutable hadmin hresolve,
      cString_eq_self (resolvePath_eq_ok hresolve).2.1, hnone]
    refine (archivedOutcome_eq_plainOutcome_iff hsound hwithin _ _).trans ?_
    simp

/-- A candidate that fits is opened under its own name. -/
theorem designated_openNode_canonical (hpath : CanonicalPath path) (directory : Bool)
    (hnone : syntheticForPath path directory = none) :
    designated (openNode store path path directory)
      = archivedOutcome store path false directory := by
  rw [openNode, hnone]
  rw [designated_openArchived hsound hexecutable hadmin directory (hpath.resolvePath_eq rfl)]
  by_cases hroot : path = [slash]
  · cases directory with
    | true => simp [archivedOutcome]
    | false => simp [archivedOutcome, reachable, hroot, findEntry_root_file]
  · rw [decide_eq_false hroot]

theorem designated_openNode_ne (hpath : CanonicalPath path) (directory : Bool) :
    designated (openNode store path path directory) ≠ .error .invalidArgument := by
  cases hnode : syntheticForPath path directory with
  | none =>
    rw [designated_openNode_canonical hsound hexecutable hadmin hpath directory hnode,
      archivedOutcome]
    split <;> simp
  | some node =>
    rw [openNode, hnode]
    rw [hsound.designated_wrapNode (stands_of_synthetic store.initrd hnode)]
    simp

theorem directoryOpen_agrees_iff (hbase : CanonicalPath base)
    (houtside : ¬ResolvesIntoEtc base path) (directory : Bool) :
    designated (directoryOpen store base path directory)
        = (directoryOpenEntry store.initrd base path directory).map .backing
      ↔ DirectoryAgrees store.initrd base path directory := by
  unfold DirectoryAgrees
  cases hresolve : resolvePath base path with
  | error failure =>
    obtain rfl := resolvePath_error hresolve
    have hplain : directoryOpenEntry store.initrd base path directory
        = .error .invalidArgument := by
      rw [directoryOpenEntry, hresolve]
    rw [hplain, directoryOpen]
    by_cases hempty : path = []
    · simp [hempty, designated, Except.map]
    rw [if_neg hempty]
    rw [← normalizeCandidate_eq]
    simp only [hempty, false_or]
    by_cases hlong : facetPathMax < (normalizeCandidate (candidatePath base path)).length
    · simp [openNode_long store hlong, designated, Except.map, hlong]
    · simp only [hlong, iff_false]
      exact designated_openNode_ne hsound hexecutable hadmin
        (canonicalPath_normalizeCandidate (Nat.le_of_not_lt hlong)) directory
  | ok output =>
    obtain ⟨resolved, requiresDirectory⟩ := output
    have hwithin : ¬WithinEtc resolved := fun hwithin => houtside ⟨_, _, hresolve, hwithin⟩
    have hnone : syntheticForPath resolved directory = none :=
      Option.eq_none_iff_forall_ne_some.mpr fun node hnode =>
        hwithin ((syntheticForPath_some hnode).1 ▸ withinEtc_synthetic node)
    have hcanonical := canonicalPath_of_resolvePath hbase hresolve
    rw [directoryOpenEntry_eq store.initrd hbase directory hresolve, directoryOpen,
      if_neg (resolvePath_eq_ok hresolve).1]
    dsimp only
    rw [normalizeCandidate_of_resolvePath hbase hresolve,
      designated_openNode_canonical hsound hexecutable hadmin hcanonical directory hnone]
    cases hkind : requiresDirectory && !directory with
    | false =>
      have hplain : plainOutcome store.initrd resolved requiresDirectory directory
          = plainOutcome store.initrd resolved false directory := by
        simp [plainOutcome, hkind]
      rw [hplain, archivedOutcome_eq_plainOutcome_iff hsound hwithin]
      simp
    | true =>
      cases hreachable : reachable store.initrd resolved directory <;>
        simp [archivedOutcome, plainOutcome, hkind, hreachable, foundNode, Except.map]

theorem storeOpen_spelling_iff {left right : List UInt8} {leftKind rightKind : Bool}
    (hleft : resolvePath [slash] left = .ok (resolved, leftKind))
    (hright : resolvePath [slash] right = .ok (resolved, rightKind)) (directory : Bool) :
    designated (storeOpen store left directory) = designated (storeOpen store right directory)
      ↔ SpellingsAgree store left right resolved leftKind rightKind directory := by
  rw [designated_storeOpen hsound hexecutable hadmin hleft,
    designated_storeOpen hsound hexecutable hadmin hright, SpellingsAgree]
  cases hfirst : syntheticForPath left directory with
  | none =>
    cases hsecond : syntheticForPath right directory with
    | none =>
      simp only [archived_spelling_iff, ne_eq, not_true_eq_false, true_and, false_or]
      cases leftKind <;> cases rightKind <;> cases directory <;> simp
    | some node =>
      rw [eq_comm, synthetic_spelling_iff store node, (resolvePath_synthetic hright hsecond).2]
      simp
  | some node =>
    cases hsecond : syntheticForPath right directory with
    | none =>
      rw [synthetic_spelling_iff store node, (resolvePath_synthetic hleft hfirst).2]
      simp
    | some other =>
      have hpaths : node.path = other.path :=
        (resolvePath_synthetic hleft hfirst).1.symm.trans
          (resolvePath_synthetic hright hsecond).1
      have hnodes : node = other := by
        rw [← Option.some_inj, ← hfirst, ← hsecond, (syntheticForPath_some hfirst).1,
          (syntheticForPath_some hsecond).1, hpaths]
      simp [hnodes]

end Administrator

/-- When the store and the directories of an administrator's view answer as
those of the archive, and when two spellings of one path are one node. -/
theorem credential_views_agree_iff {initrd : FacetInitrd} {credentials : Credentials}
    {users : List FacetConfigUser} {history : List Operation} {store : CredentialFileStore}
    (hstore : storeAfter initrd credentials users history = some store)
    (hexecutable : Executable initrd) (hadmin : credentials.admin = true) :
    (∀ path directory, ¬ResolvesIntoEtc [slash] path →
      (designated (storeOpen store path directory)
          = (storeOpenEntry initrd path directory).map .backing
        ↔ StoreAgrees initrd path directory))
    ∧ (∀ node ∈ store.nodes, node.directory = true → ∀ path directory,
      ¬ResolvesIntoEtc node.path path →
      (designated (openFrom store node.handle path directory)
          = (directoryOpenEntry initrd node.path path directory).map .backing
        ↔ DirectoryAgrees initrd node.path path directory))
    ∧ (∀ left right resolved leftKind rightKind directory,
      resolvePath [slash] left = .ok (resolved, leftKind) →
      resolvePath [slash] right = .ok (resolved, rightKind) →
      (designated (storeOpen store left directory) = designated (storeOpen store right directory)
        ↔ SpellingsAgree store left right resolved leftKind rightKind directory))
    ∧ (∀ node ∈ store.nodes, node.directory = true →
      ∀ left right resolved leftKind rightKind directory,
      resolvePath node.path left = .ok (resolved, leftKind) →
      resolvePath node.path right = .ok (resolved, rightKind) →
      designated (openFrom store node.handle left directory)
        = designated (openFrom store node.handle right directory)) := by
  have hsound := soundStore_of_storeAfter hstore
  obtain ⟨-, -, -, -, rfl, rfl⟩ := storeAfter_extends hstore
  refine ⟨?_, ?_, ?_, ?_⟩
  · intro path directory houtside
    exact storeOpen_agrees_iff hsound hexecutable hadmin houtside directory
  · intro node hnode hkind path directory houtside
    rw [hsound.openFrom_eq hnode hkind]
    exact directoryOpen_agrees_iff hsound hexecutable hadmin (hsound.canonicalPath hnode)
      houtside directory
  · intro left right resolved leftKind rightKind directory hleft hright
    exact storeOpen_spelling_iff hsound hexecutable hadmin hleft hright directory
  · intro node hnode hkind left right resolved leftKind rightKind directory hleft hright
    rw [hsound.openFrom_eq hnode hkind, hsound.openFrom_eq hnode hkind,
      directoryOpen_spelling store (hsound.canonicalPath hnode) hleft hright]

def administrator : Credentials := ⟨0, 0, true⟩

/-- An archive with one file. -/
def noticeFile : InitrdEntry := ⟨ascii "/notice", [7], false, 0o100644, 0, 0⟩

def noticeArchive : FacetInitrd :=
  FacetInitrd.rootOnly.append noticeFile ⟨rfl, by decide⟩ (by decide)

/-- The administrator's store with its root directory open. -/
def noticeStore : CredentialFileStore :=
  ⟨noticeArchive, administrator, defaultPasswd, defaultShadow, [⟨.backing rootEntry, true, 0⟩]⟩

theorem storeAfter_notice :
    storeAfter noticeArchive administrator [] [.storeOpenDirectory [slash]] = some noticeStore :=
  rfl

theorem credential_views_agree_iff_notice :
    designated (openFrom noticeStore 0 (ascii "notice") false)
      = (directoryOpenEntry noticeArchive [slash] (ascii "notice") false).map .backing := by
  have hexecutable : Executable noticeArchive := by decide
  have hresolve : resolvePath [slash] (ascii "notice") = .ok (ascii "/notice", false) := by decide
  have houtside : ¬ResolvesIntoEtc [slash] (ascii "notice") := by
    rintro ⟨resolved, requiresDirectory, hother, hwithin⟩
    rw [hresolve] at hother
    obtain ⟨rfl, -⟩ := Prod.mk.inj (Except.ok.inj hother)
    exact absurd hwithin (by decide)
  have hagrees : DirectoryAgrees noticeArchive [slash] (ascii "notice") false := by
    rw [DirectoryAgrees, hresolve]
    intro _
    decide
  exact ((credential_views_agree_iff storeAfter_notice hexecutable rfl).2.1
    ⟨.backing rootEntry, true, 0⟩ List.mem_cons_self rfl (ascii "notice") false houtside).mpr
      hagrees

/-- A trailing separator does not keep a credential directory from opening a
file, and a dot makes a credential store miss the synthetic account file. -/
theorem notice_views_differ :
    storeAfter noticeArchive administrator [] [.storeOpenDirectory [slash]] = some noticeStore
      ∧ Executable noticeArchive
      ∧ designated (openFrom noticeStore 0 (ascii "notice/") false) = .ok (.backing noticeFile)
      ∧ directoryOpenEntry noticeArchive [slash] (ascii "notice/") false = .error .notFound
      ∧ resolvePath [slash] (ascii "/posix/etc/./passwd")
        = resolvePath [slash] (ascii "/posix/etc/passwd")
      ∧ designated (storeOpen noticeStore (ascii "/posix/etc/passwd") false)
        = .ok (.synthetic .passwd)
      ∧ designated (storeOpen noticeStore (ascii "/posix/etc/./passwd") false)
        = .error .notFound :=
  ⟨rfl, by decide, by decide, by decide, by decide, by decide, by decide⟩

end FacetOS.FileView
