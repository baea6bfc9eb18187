import FacetOS.FileView.Operations
import FacetOS.FileView.Search

/-!
# Disclosure of names below an unsearchable directory

A credential store looks a node up before it searches the node's ancestors.  A
caller who may not search a directory therefore gets one error for a name that
exists below it and another for a name that does not, unless a directory
further up is missing from the archive as well.  The development compares two
archives that differ only below that directory, after the same operations.
-/

namespace FacetOS.FileView

open Initrd Paths
open Rpc (FacetError)
open Config (FacetConfigUser)

/-- The archives hold the same entries, except strictly below the directory. -/
def EqualOutside (directory : InitrdEntry) (left right : FacetInitrd) : Prop :=
  ∀ entry, pathBelow directory.path entry.path = none →
    (entry ∈ left.entries ↔ entry ∈ right.entries)

/-! ## Positions relative to the directory -/

theorem pathBelow_self (path : List UInt8) : pathBelow path path = none := by
  by_cases hroot : path = [slash] <;> simp [pathBelow, hroot]

theorem pathBelow_root (directory : List UInt8) : pathBelow directory [slash] = none := by
  by_cases hroot : directory = [slash]
  · simp [pathBelow, hroot]
  · cases directory <;> simp [pathBelow, hroot]

variable {path : List UInt8} {initrd : FacetInitrd} {store : CredentialFileStore} {α : Type}
  {directory : InitrdEntry} {credentials : Credentials} {request : OpenRequest}

/-- What lies above a node outside the directory lies outside it as well. -/
theorem pathBelow_ancestor {directory ancestor : List UInt8}
    (hancestor : ancestor ++ [slash] <+: path) (hpath : pathBelow directory path = none)
    (habsolute : path.head? = some slash) : pathBelow directory ancestor = none := by
  obtain ⟨rest, rfl⟩ := hancestor
  by_contra hbelow
  obtain ⟨name, hname⟩ := Option.ne_none_iff_exists'.mp hbelow
  by_cases hroot : directory = [slash]
  · unfold pathBelow at hname hpath
    rw [if_pos hroot] at hname hpath
    split at hname
    · rename_i hshape
      rw [if_pos ⟨habsolute, by
        obtain ⟨byte, tail, rfl⟩ := List.exists_cons_of_ne_nil
          (fun hempty => hshape.2 (by rw [hempty]; rfl) : ancestor ≠ [])
        simp⟩] at hpath
      contradiction
    · contradiction
  · have hsplit := pathBelow_some hroot hname
    simp [hsplit, pathBelow, hroot] at hpath

/-! ## Searches -/

theorem checkAll_congr {check other : α → Except FacetError Unit} {items : List α}
    (heq : ∀ item ∈ items, check item = other item) :
    checkAll check items = checkAll other items := by
  induction items with
  | nil => rfl
  | cons item items ih =>
    rw [checkAll, checkAll, heq item (by simp), ih (fun next hnext => heq next (by simp [hnext]))]

theorem checkAll_append (check : α → Except FacetError Unit) (before after : List α) :
    checkAll check (before ++ after)
      = (match checkAll check before with
        | .error failure => .error failure
        | .ok () => checkAll check after) := by
  induction before with
  | nil => rfl
  | cons item before ih =>
    rw [List.cons_append, checkAll, checkAll, ih]
    cases check item <;> rfl

section Outside

variable {left right : FacetInitrd} (hequal : EqualOutside directory left right)
include hequal

theorem EqualOutside.findEntry_eq (houtside : pathBelow directory.path path = none) (kind : Bool) :
    findEntry left path kind = findEntry right path kind := by
  apply Option.ext
  intro entry
  rw [findEntry_eq_some_iff, findEntry_eq_some_iff]
  exact and_congr_left fun hentry => hequal entry (hentry.1 ▸ houtside)

theorem EqualOutside.checkSearchStep_eq
    (hpath : CanonicalPath path) (houtside : pathBelow directory.path path = none)
    (credentials : Credentials) :
    checkSearchStep left credentials path = checkSearchStep right credentials path := by
  rw [checkSearchStep, checkSearchStep, facetInitrdOpenNode_directory left hpath,
    facetInitrdOpenNode_directory right hpath, hequal.findEntry_eq houtside]

theorem EqualOutside.checkSearch_eq
    (hpath : CanonicalPath path) (houtside : pathBelow directory.path path = none)
    (credentials : Credentials) (includeTarget : Bool) :
    checkSearch left credentials path includeTarget
      = checkSearch right credentials path includeTarget := by
  have hvisited : ∀ visited ∈ searchedPaths path includeTarget,
      CanonicalPath visited ∧ pathBelow directory.path visited = none := by
    intro visited hmem
    simp only [searchedPaths, List.cons_append, List.mem_cons, List.mem_append] at hmem
    rcases hmem with hroot | hancestor | htarget
    · rw [hroot]
      exact ⟨canonicalPath_root, pathBelow_root _⟩
    · exact ⟨hpath.of_mem_ancestorPaths hancestor,
        pathBelow_ancestor (isPrefix_of_mem_ancestorPaths hancestor) houtside hpath.absolute⟩
    · split at htarget
      · rw [List.mem_singleton.mp htarget]
        exact ⟨hpath, houtside⟩
      · simp at htarget
  unfold checkSearch
  rw [checkAll_congr (fun visited hmem =>
    hequal.checkSearchStep_eq (hvisited visited hmem).1 (hvisited visited hmem).2 credentials)]

theorem EqualOutside.unsearchable (hdirectory : Unsearchable left credentials directory) :
    Unsearchable right credentials directory :=
  { hdirectory with stored := (hequal directory (pathBelow_self _)).mp hdirectory.stored }

end Outside

/-! ## What a search of a hidden node answers -/

/-- The root is stored with a mode that lets everybody search it. -/
theorem checkSearchStep_root (initrd : FacetInitrd) (credentials : Credentials) :
    checkSearchStep initrd credentials [slash] = .ok () := by
  have hmem : rootEntry ∈ initrd.entries := List.mem_of_head? initrd.rootFirst
  have hfind : findEntry initrd [slash] true = some rootEntry :=
    findEntry_eq_some_iff.mpr ⟨hmem, rfl, rfl⟩
  have hallowed : modeAllows rootEntry.mode rootEntry.uid rootEntry.gid credentials.uid
      credentials.gid credentials.admin 1 = true := by
    unfold modeAllows
    split_ifs <;> decide
  rw [checkSearchStep, facetInitrdOpenNode_directory initrd canonicalPath_root, hfind]
  simp [foundNode, checkAccess, hallowed]

section

variable (hdirectory : Unsearchable initrd credentials directory)
include hdirectory

theorem Unsearchable.path_ne_root :
    directory.path ≠ [slash] := by
  intro hroot
  have hrefused := hdirectory.checkSearchStep_eq (hroot ▸ canonicalPath_root)
  rw [hroot, checkSearchStep_root] at hrefused
  contradiction

theorem Unsearchable.path_ne_nil :
    directory.path ≠ [] := by
  intro hempty
  simpa [hempty] using (initrd.stored directory hdirectory.stored).absolute

/-- The error of a search that is refused at the directory at the latest. -/
def refusal (search : Except FacetError Unit) : FacetError :=
  match search with
  | .error failure => failure
  | .ok () => .accessDenied

/-- The search of a node below the directory fails as the search of the
directory's own ancestors does, and else is denied. -/
theorem Unsearchable.checkSearch_below {rest : List UInt8}
    (hpath : CanonicalPath path) (hbelow : pathBelow directory.path path = some rest)
    (includeTarget : Bool) :
    checkSearch initrd credentials path includeTarget
      = .error (refusal (checkSearch initrd credentials directory.path false)) := by
  have hsplit := pathBelow_some hdirectory.path_ne_root hbelow
  subst hsplit
  have hcanonical := hpath.ancestor hdirectory.path_ne_nil
  obtain ⟨after, hsearched⟩ :=
    searchedPaths_below hdirectory.path_ne_root hdirectory.path_ne_nil hpath includeTarget
  have hhead : (directory.path ++ slash :: rest).head? = some slash := hpath.absolute
  unfold checkSearch
  rw [if_neg (by simp [hhead]), if_neg (by simp [hcanonical.absolute]), hsearched,
    checkAll_append, checkAll, hdirectory.checkSearchStep_eq hcanonical]
  cases checkAll (checkSearchStep initrd credentials) (searchedPaths directory.path false) <;> rfl

end

theorem checkAll_eq_error_iff {check : α → Except FacetError Unit} {items : List α}
    {failure : FacetError} :
    checkAll check items = .error failure
      ↔ ∃ before item after, items = before ++ item :: after
        ∧ (∀ earlier ∈ before, check earlier = .ok ()) ∧ check item = .error failure := by
  constructor
  · intro hfails
    induction items with
    | nil => simp [checkAll] at hfails
    | cons first items ih =>
      rw [checkAll] at hfails
      cases hfirst : check first <;> rw [hfirst] at hfails
      case error => exact ⟨[], first, items, rfl, by simp, hfirst.trans hfails⟩
      obtain ⟨before, item, after, rfl, hbefore, hitem⟩ := ih hfails
      exact ⟨first :: before, item, after, rfl, List.forall_mem_cons.mpr ⟨hfirst, hbefore⟩, hitem⟩
  · rintro ⟨before, item, after, rfl, hbefore, hitem⟩
    induction before with
    | nil => rw [List.nil_append, checkAll, hitem]
    | cons first before ih =>
      rw [List.cons_append, checkAll, hbefore first (by simp)]
      exact ih (fun earlier hearlier => hbefore earlier (by simp [hearlier]))

/-- The archive has this directory, and the credentials may search it. -/
def Searchable (initrd : FacetInitrd) (credentials : Credentials) (path : List UInt8) : Prop :=
  ∃ entry, findEntry initrd path true = some entry
    ∧ modeAllows entry.mode entry.uid entry.gid credentials.uid credentials.gid
      credentials.admin 1 = true

/-- An ancestor of the path is missing from the archive, and everything above
that ancestor can be searched. -/
def MissingAncestor (initrd : FacetInitrd) (credentials : Credentials) (path : List UInt8) :
    Prop :=
  ∃ above missing below, ancestorPaths path = above ++ missing :: below
    ∧ (∀ ancestor ∈ above, Searchable initrd credentials ancestor)
    ∧ findEntry initrd missing true = none

theorem checkSearchStep_eq_ok_iff (hpath : CanonicalPath path) :
    checkSearchStep initrd credentials path = .ok () ↔ Searchable initrd credentials path := by
  rw [checkSearchStep, facetInitrdOpenNode_directory initrd hpath, Searchable]
  cases findEntry initrd path true <;> simp [foundNode, checkAccess]

theorem checkSearchStep_eq_notFound_iff (hpath : CanonicalPath path) :
    checkSearchStep initrd credentials path = .error .notFound
      ↔ findEntry initrd path true = none := by
  rw [checkSearchStep, facetInitrdOpenNode_directory initrd hpath]
  cases findEntry initrd path true with
  | none => simp [foundNode]
  | some entry =>
    simp only [foundNode, checkAccess, reduceCtorEq, iff_false]
    split <;> simp

theorem refusal_eq_notFound_iff (hpath : CanonicalPath path) :
    refusal (checkSearch initrd credentials path false) = .notFound
      ↔ MissingAncestor initrd credentials path := by
  have hsearch : refusal (checkSearch initrd credentials path false) = .notFound
      ↔ checkAll (checkSearchStep initrd credentials) (ancestorPaths path)
        = .error .notFound := by
    rw [checkSearch, if_neg (by simp [hpath.absolute]), searchedPaths]
    simp only [Bool.false_eq_true, false_and, if_false, List.append_nil]
    rw [checkAll, checkSearchStep_root]
    cases checkAll (checkSearchStep initrd credentials) (ancestorPaths path) <;> simp [refusal]
  rw [hsearch, checkAll_eq_error_iff]
  refine exists_congr fun above => exists_congr fun missing => exists_congr fun below =>
    and_congr_right fun hlist => ?_
  have hcanonical : ∀ visited ∈ above ++ missing :: below, CanonicalPath visited :=
    fun visited hvisited => hpath.of_mem_ancestorPaths (hlist ▸ hvisited)
  apply and_congr
  · apply forall₂_congr
    intro ancestor hancestor
    exact checkSearchStep_eq_ok_iff (hcanonical ancestor (by simp [hancestor]))
  · exact checkSearchStep_eq_notFound_iff (hcanonical missing (by simp))

/-! ## Two stores after the same operations -/

/-- Stores over archives that differ only below the hidden directory. -/
structure AlikeOutside (directory : InitrdEntry) (left right : CredentialFileStore) : Prop where
  archives : EqualOutside directory left.initrd right.initrd
  hidden : Unsearchable left.initrd left.credentials directory
  credentials : left.credentials = right.credentials
  passwd : left.virtualPasswd = right.virtualPasswd
  shadow : left.virtualShadow = right.virtualShadow
  nodes : left.nodes = right.nodes

/-- The entry that an open finds, if any. -/
def openedEntry (initrd : FacetInitrd) (target : List UInt8) (requiresDirectory kind : Bool) :
    Option InitrdEntry :=
  if requiresDirectory && !kind then none else findEntry initrd target kind

/-- The error that an open of a hidden node reports. -/
def hiddenError (initrd : FacetInitrd) (credentials : Credentials) (directory : InitrdEntry)
    (entry : Option InitrdEntry) : FacetError :=
  match entry with
  | none => .notFound
  | some _ => refusal (checkSearch initrd credentials directory.path false)

/-- An open of a hidden node leaves the store alone and only tells whether the
node exists. -/
theorem openArchived_below
    (hdirectory : Unsearchable store.initrd store.credentials directory) {target rest : List UInt8}
    {requiresDirectory : Bool}
    (hresolve : resolvePath [slash] path = .ok (target, requiresDirectory))
    (hbelow : pathBelow directory.path target = some rest) (kind : Bool) :
    openArchived store path kind
      = (.error (hiddenError store.initrd store.credentials directory
          (openedEntry store.initrd target requiresDirectory kind)), store) := by
  have hopen : facetInitrdOpenNode store.initrd [slash] path kind
      = foundNode (openedEntry store.initrd target requiresDirectory kind) := by
    rw [facetInitrdOpenNode, hresolve, openedEntry]
  unfold openArchived
  cases hentry : openedEntry store.initrd target requiresDirectory kind with
  | none =>
    rw [hopen, hentry]
    rfl
  | some entry =>
    rw [hentry] at hopen
    obtain ⟨flag, hpath, -, -⟩ := facetInitrdOpenNode_ok hopen
    rw [hresolve] at hpath
    obtain ⟨rfl, -⟩ := Prod.mk.inj (Except.ok.inj hpath)
    rw [hopen]
    simp only [foundNode]
    rw [hdirectory.checkSearch_below (canonicalPath_of_open hopen) hbelow]
    rfl

section Stores

variable {left right : CredentialFileStore} (halike : AlikeOutside directory left right)
include halike

theorem AlikeOutside.wrapNode (target : NodeTarget) (kind : Bool) :
    (wrapNode left target kind).1 = (wrapNode right target kind).1
      ∧ AlikeOutside directory (wrapNode left target kind).2 (wrapNode right target kind).2 := by
  unfold FileView.wrapNode
  rw [← halike.nodes]
  split
  · exact ⟨rfl, halike⟩
  · exact ⟨rfl, { halike with nodes := rfl }⟩

theorem AlikeOutside.openArchived (path : List UInt8) (kind : Bool) :
    AlikeOutside directory (openArchived left path kind).2 (openArchived right path kind).2 := by
  cases hresolve : resolvePath [slash] path with
  | error failure =>
    simp only [FileView.openArchived, facetInitrdOpenNode, hresolve]
    exact halike
  | ok resolved =>
    obtain ⟨target, requiresDirectory⟩ := resolved
    cases hbelow : pathBelow directory.path target with
    | some rest =>
      have hright := halike.credentials ▸ halike.archives.unsearchable halike.hidden
      rw [openArchived_below halike.hidden hresolve hbelow,
        openArchived_below hright hresolve hbelow]
      exact halike
    | none =>
      have hopen : facetInitrdOpenNode left.initrd [slash] path kind
          = facetInitrdOpenNode right.initrd [slash] path kind := by
        simp only [facetInitrdOpenNode, hresolve]
        rw [halike.archives.findEntry_eq hbelow]
      unfold FileView.openArchived
      rw [← hopen, ← halike.credentials]
      cases hnode : facetInitrdOpenNode left.initrd [slash] path kind with
      | error failure => exact halike
      | ok opened =>
        obtain ⟨flag, hpath, -, -⟩ := facetInitrdOpenNode_ok hnode
        rw [hresolve] at hpath
        obtain ⟨rfl, -⟩ := Prod.mk.inj (Except.ok.inj hpath)
        dsimp only
        rw [← halike.archives.checkSearch_eq (canonicalPath_of_open hnode) hbelow]
        cases checkSearch left.initrd left.credentials opened.path kind with
        | error failure => exact halike
        | ok => exact (halike.wrapNode (.backing opened) kind).2

theorem AlikeOutside.openNode (name path : List UInt8) (kind : Bool) :
    AlikeOutside directory (openNode left name path kind).2 (openNode right name path kind).2 := by
  unfold FileView.openNode
  cases syntheticForPath name kind with
  | none => exact halike.openArchived path kind
  | some node => exact (halike.wrapNode (.synthetic node) kind).2

end Stores

/-! ## Opening a hidden node -/

/-- What an open operation asks for: the name compared with the synthetic
nodes, the path looked up in the archive, and the kind. -/
structure OpenRequest where
  name : List UInt8
  path : List UInt8
  directory : Bool

def storeRequest (path : List UInt8) (directory : Bool) : Option OpenRequest :=
  if path = [] then none else some ⟨cString path, path, directory⟩

def directoryRequest (store : CredentialFileStore) (handle : ℕ) (path : List UInt8)
    (directory : Bool) : Option OpenRequest :=
  match withNode store handle (some true) (fun node => .ok node.path) with
  | .error _ => none
  | .ok base =>
    if path = [] then none
    else
      let candidate := normalizeCandidate (candidatePath base path)
      some ⟨candidate, candidate, directory⟩

def openRequest (store : CredentialFileStore) : Operation → Option OpenRequest
  | .storeOpenFile path => storeRequest path false
  | .storeOpenDirectory path => storeRequest path true
  | .directoryOpenFile handle path => directoryRequest store handle path false
  | .directoryOpenDirectory handle path => directoryRequest store handle path true
  | _ => none

theorem storeOpen_eq {directory : Bool} (hrequest : storeRequest path directory = some request) :
    storeOpen store path directory
      = openNode store request.name request.path request.directory := by
  obtain ⟨hpath, ⟨⟩⟩ := Option.ite_none_left_eq_some.mp hrequest
  exact if_neg hpath

theorem openFrom_eq {handle : ℕ} {directory : Bool}
    (hrequest : directoryRequest store handle path directory = some request) :
    openFrom store handle path directory
      = openNode store request.name request.path request.directory := by
  unfold directoryRequest at hrequest
  unfold openFrom
  cases hbase : withNode store handle (some true) (fun node => .ok node.path) <;>
    simp only [hbase] at hrequest
  case error => cases hrequest
  obtain ⟨hpath, ⟨⟩⟩ := Option.ite_none_left_eq_some.mp hrequest
  exact if_neg hpath

theorem perform_openRequest {operation : Operation}
    (hrequest : openRequest store operation = some request) :
    perform store operation
      = openReply (openNode store request.name request.path request.directory) := by
  cases operation with
  | storeOpenFile path => exact congrArg openReply (storeOpen_eq hrequest)
  | storeOpenDirectory path => exact congrArg openReply (storeOpen_eq hrequest)
  | directoryOpenFile handle path => exact congrArg openReply (openFrom_eq hrequest)
  | directoryOpenDirectory handle path => exact congrArg openReply (openFrom_eq hrequest)
  | _ => simp [openRequest] at hrequest

/-- An operation that opens nothing leaves the store alone. -/
theorem perform_unopened {operation : Operation} (hnone : openRequest store operation = none) :
    (perform store operation).2 = store := by
  have hstore {path : List UInt8} {directory : Bool}
      (hrequest : storeRequest path directory = none) :
      (storeOpen store path directory).2 = store := by
    simp_all [storeRequest, storeOpen]
  have hfrom {handle : ℕ} {path : List UInt8} {directory : Bool}
      (hrequest : directoryRequest store handle path directory = none) :
      (openFrom store handle path directory).2 = store := by
    unfold openFrom
    cases hbase : withNode store handle (some true) (fun node => .ok node.path) <;>
      simp_all [directoryRequest, directoryOpen]
  cases operation with
  | storeOpenFile path => exact hstore hnone
  | storeOpenDirectory path => exact hstore hnone
  | directoryOpenFile handle path => exact hfrom hnone
  | directoryOpenDirectory handle path => exact hfrom hnone
  | _ => rfl

section

variable {right left : CredentialFileStore} (halike : AlikeOutside directory left right)
include halike

theorem AlikeOutside.openRequest_eq (operation : Operation) :
    openRequest left operation = openRequest right operation := by
  have hdirectory : ∀ handle path kind,
      directoryRequest left handle path kind = directoryRequest right handle path kind := by
    intro handle path kind
    rw [directoryRequest, directoryRequest, withNode, withNode, halike.nodes]
  cases operation with
  | directoryOpenFile handle path => exact hdirectory handle path false
  | directoryOpenDirectory handle path => exact hdirectory handle path true
  | _ => rfl

/-- Whatever the answers are, one operation keeps the stores alike. -/
theorem AlikeOutside.perform (operation : Operation) :
    AlikeOutside directory (perform left operation).2 (perform right operation).2 := by
  have hsame := halike.openRequest_eq operation
  cases hrequest : openRequest left operation with
  | none =>
    rwa [perform_unopened hrequest, perform_unopened (hsame.symm.trans hrequest)]
  | some request =>
    rw [perform_openRequest hrequest, perform_openRequest (hsame.symm.trans hrequest)]
    exact halike.openNode _ _ _

end

/-- The store after a sequence of operations on a newly created store. -/
def storeAfter (initrd : FacetInitrd) (credentials : Credentials)
    (users : List FacetConfigUser) (history : List Operation) : Option CredentialFileStore :=
  (credentialFileStoreCreate initrd credentials users).map (fun store =>
    (performAll store history).2)

theorem storeAfter_extends {users : List FacetConfigUser}
    {history : List Operation} (hstore : storeAfter initrd credentials users history = some store) :
    ∃ passwd shadow, renderVirtualCredentials users = some (passwd, shadow)
      ∧ store = (performAll ⟨initrd, credentials, passwd, shadow, []⟩ history).2
      ∧ store.initrd = initrd ∧ store.credentials = credentials := by
  simp only [storeAfter, credentialFileStoreCreate, Option.map_eq_some_iff] at hstore
  obtain ⟨created, ⟨⟨passwd, shadow⟩, hrender, rfl⟩, rfl⟩ := hstore
  have hextends := performAll_extends ⟨initrd, credentials, passwd, shadow, []⟩ history
  exact ⟨passwd, shadow, hrender, rfl, hextends.initrd, hextends.credentials⟩

theorem storeAfter_alike
    {left right : FacetInitrd} (hdirectory : Unsearchable left credentials directory)
    (hequal : EqualOutside directory left right) {users : List FacetConfigUser}
    {history : List Operation} {leftStore rightStore : CredentialFileStore}
    (hleft : storeAfter left credentials users history = some leftStore)
    (hright : storeAfter right credentials users history = some rightStore) :
    AlikeOutside directory leftStore rightStore := by
  obtain ⟨passwd, shadow, hrender, rfl, -⟩ := storeAfter_extends hleft
  obtain ⟨otherPasswd, otherShadow, hother, rfl, -⟩ := storeAfter_extends hright
  rw [hrender] at hother
  obtain ⟨rfl, rfl⟩ := Prod.mk.inj (Option.some.inj hother)
  have hcreated : AlikeOutside directory ⟨left, credentials, passwd, shadow, []⟩
      ⟨right, credentials, passwd, shadow, []⟩ :=
    ⟨hequal, hdirectory, rfl, rfl, rfl, rfl⟩
  exact Runs.related_outputs (fun first second operation
    (halike : AlikeOutside directory first second) => halike.perform operation) hcreated history

/-- When the two archives cannot be told apart by an open of a hidden path: a
synthetic node answers, the spelling asks for a directory and the caller for a
file, the node exists in both archives or in neither, or a directory further up
is missing. -/
def KeepsHidden (left right : FacetInitrd) (credentials : Credentials)
    (directory : InitrdEntry) (request : OpenRequest) (target : List UInt8)
    (requiresDirectory : Bool) : Prop :=
  syntheticForPath request.name request.directory ≠ none
    ∨ (requiresDirectory = true ∧ request.directory = false)
    ∨ ((findEntry left target request.directory).isSome
        = (findEntry right target request.directory).isSome)
    ∨ MissingAncestor left credentials directory.path

section Hidden

variable {left right : FacetInitrd}
variable {target rest : List UInt8} {requiresDirectory : Bool}

/-- A found node makes the directory above it canonical. -/
theorem canonicalPath_of_openedEntry (hdirectory : Unsearchable left credentials directory)
    (hresolve : resolvePath [slash] path = .ok (target, requiresDirectory))
    (hbelow : pathBelow directory.path target = some rest) {entry : InitrdEntry} {kind : Bool}
    (hentry : openedEntry initrd target requiresDirectory kind = some entry) :
    CanonicalPath directory.path := by
  have hopen : facetInitrdOpenNode initrd [slash] path kind = .ok entry := by
    rw [facetInitrdOpenNode, hresolve]
    exact congrArg foundNode hentry
  obtain ⟨flag, hpath, -, -⟩ := facetInitrdOpenNode_ok hopen
  rw [hresolve] at hpath
  obtain ⟨rfl, -⟩ := Prod.mk.inj (Except.ok.inj hpath)
  have hcanonical := canonicalPath_of_open hopen
  rw [pathBelow_some hdirectory.path_ne_root hbelow] at hcanonical
  exact hcanonical.ancestor hdirectory.path_ne_nil

theorem hiddenError_eq_iff (hdirectory : Unsearchable left credentials directory)
    (hequal : EqualOutside directory left right)
    (hresolve : resolvePath [slash] path = .ok (target, requiresDirectory))
    (hbelow : pathBelow directory.path target = some rest) (kind : Bool) :
    hiddenError left credentials directory (openedEntry left target requiresDirectory kind)
        = hiddenError right credentials directory (openedEntry right target requiresDirectory kind)
      ↔ (requiresDirectory = true ∧ kind = false)
        ∨ ((findEntry left target kind).isSome = (findEntry right target kind).isSome)
        ∨ MissingAncestor left credentials directory.path := by
  by_cases hkind : (requiresDirectory && !kind) = true
  · rw [openedEntry, openedEntry, if_pos hkind, if_pos hkind]
    simp only [Bool.and_eq_true, Bool.not_eq_eq_eq_not, Bool.not_true] at hkind
    simp [hiddenError, hkind.1, hkind.2]
  · have hleft : openedEntry left target requiresDirectory kind = findEntry left target kind :=
      if_neg hkind
    have hright : openedEntry right target requiresDirectory kind = findEntry right target kind :=
      if_neg hkind
    have hspelling : ¬(requiresDirectory = true ∧ kind = false) := by simpa using hkind
    have hverdict : ∀ {initrd : FacetInitrd} {entry : InitrdEntry},
        openedEntry initrd target requiresDirectory kind = some entry →
        (refusal (checkSearch left credentials directory.path false) = .notFound
          ↔ MissingAncestor left credentials directory.path)
        ∧ checkSearch left credentials directory.path false
          = checkSearch right credentials directory.path false := by
      intro initrd entry hentry
      have hcanonical := canonicalPath_of_openedEntry hdirectory hresolve hbelow hentry
      exact ⟨refusal_eq_notFound_iff hcanonical,
        hequal.checkSearch_eq hcanonical (pathBelow_self _) credentials false⟩
    simp only [hspelling, false_or]
    cases hfirst : findEntry left target kind with
    | none =>
      cases hsecond : findEntry right target kind with
      | none => simp [hleft, hright, hfirst, hsecond, hiddenError]
      | some entry =>
        obtain ⟨hmissing, hsearch⟩ := hverdict (hright.trans hsecond)
        rw [hleft, hright, hfirst, hsecond, hiddenError, hiddenError, ← hsearch, ← hmissing]
        simp [eq_comm]
    | some entry =>
      obtain ⟨hmissing, hsearch⟩ := hverdict (hleft.trans hfirst)
      cases hsecond : findEntry right target kind with
      | none =>
        rw [hleft, hright, hfirst, hsecond, hiddenError, hiddenError, ← hmissing]
        simp
      | some other => simp [hleft, hright, hfirst, hsecond, hiddenError, hsearch]

end Hidden

/-- After any common history, an open of a path below the directory answers
alike on both archives exactly when the name keeps hidden. -/
theorem open_hidden_iff {credentials : Credentials} {directory : InitrdEntry}
    {left right : FacetInitrd} (hdirectory : Unsearchable left credentials directory)
    (hequal : EqualOutside directory left right) {users : List FacetConfigUser}
    {history : List Operation} {leftStore rightStore : CredentialFileStore}
    (hleft : storeAfter left credentials users history = some leftStore)
    (hright : storeAfter right credentials users history = some rightStore)
    {operation : Operation} {request : OpenRequest}
    (hrequest : openRequest leftStore operation = some request)
    {target rest : List UInt8} {requiresDirectory : Bool}
    (hresolve : resolvePath [slash] request.path = .ok (target, requiresDirectory))
    (hbelow : pathBelow directory.path target = some rest) :
    (perform leftStore operation).1 = (perform rightStore operation).1
      ↔ KeepsHidden left right credentials directory request target requiresDirectory := by
  have halike := storeAfter_alike hdirectory hequal hleft hright
  obtain ⟨-, -, -, -, hleftInitrd, hleftCredentials⟩ := storeAfter_extends hleft
  obtain ⟨-, -, -, -, hrightInitrd, hrightCredentials⟩ := storeAfter_extends hright
  have hother : openRequest rightStore operation = some request :=
    (halike.openRequest_eq operation).symm.trans hrequest
  rw [perform_openRequest hrequest, perform_openRequest hother, KeepsHidden]
  unfold openNode
  cases hsynthetic : syntheticForPath request.name request.directory with
  | some node =>
    have hwrapped := (halike.wrapNode (.synthetic node) request.directory).1
    simp [openReply, hwrapped]
  | none =>
    have hsecond : Unsearchable rightStore.initrd rightStore.credentials directory :=
      halike.credentials ▸ halike.archives.unsearchable halike.hidden
    have hiff := hiddenError_eq_iff hdirectory hequal hresolve hbelow request.directory
    rw [openArchived_below halike.hidden hresolve hbelow, openArchived_below hsecond hresolve
      hbelow, hleftInitrd, hrightInitrd, hleftCredentials, hrightCredentials]
    simp only [ne_eq, not_true_eq_false, false_or]
    rw [← hiff]
    simp [openReply, Except.map]

/-- A directory that only its owner may enter. -/
def vault : InitrdEntry := ⟨ascii "/vault", [], true, 0o040700, 0, 0⟩

def vaultKey : InitrdEntry := ⟨ascii "/vault/key", [7], false, 0o100644, 0, 0⟩

def emptyVault : FacetInitrd :=
  FacetInitrd.rootOnly.append vault ⟨rfl, by decide⟩ (by decide)

def fullVault : FacetInitrd :=
  emptyVault.append vaultKey ⟨rfl, by decide⟩ (by decide)

def visitor : Credentials := ⟨1000, 1000, false⟩

theorem vault_unsearchable : Unsearchable fullVault visitor vault :=
  ⟨by decide, rfl, by decide⟩

theorem vaults_equalOutside : EqualOutside vault fullVault emptyVault := by
  intro entry houtside
  have hentries : fullVault.entries = emptyVault.entries ++ [vaultKey] := rfl
  rw [hentries, List.mem_append, List.mem_singleton]
  refine ⟨?_, Or.inl⟩
  rintro (hmem | rfl)
  · exact hmem
  · exact absurd houtside (by decide)

/-- The store of a visitor before any operation. -/
def visitorStore (initrd : FacetInitrd) : CredentialFileStore :=
  ⟨initrd, visitor, defaultPasswd, defaultShadow, []⟩

/-- The trailing separator of a name for a file hides whether the file exists. -/
theorem open_hidden_iff_vault :
    (perform (visitorStore fullVault) (.storeOpenFile (ascii "/vault/key/"))).1
      = (perform (visitorStore emptyVault) (.storeOpenFile (ascii "/vault/key/"))).1 := by
  have hleft : storeAfter fullVault visitor [] [] = some (visitorStore fullVault) := rfl
  have hright : storeAfter emptyVault visitor [] [] = some (visitorStore emptyVault) := rfl
  have hresolve : resolvePath [slash] (ascii "/vault/key/") = .ok (ascii "/vault/key", true) := by
    decide
  have hbelow : pathBelow vault.path (ascii "/vault/key") = some (ascii "key") := by decide
  exact (open_hidden_iff vault_unsearchable vaults_equalOutside hleft hright rfl hresolve
    hbelow).mpr (.inr (.inl ⟨rfl, rfl⟩))

/-- A visitor learns whether the vault holds a key. -/
theorem vault_key_disclosed :
    Unsearchable fullVault visitor vault ∧ EqualOutside vault fullVault emptyVault
      ∧ pathBelow vault.path (ascii "/vault/key") = some (ascii "key")
      ∧ (perform (visitorStore fullVault) (.storeOpenFile (ascii "/vault/key"))).1
        = .error .accessDenied
      ∧ (perform (visitorStore emptyVault) (.storeOpenFile (ascii "/vault/key"))).1
        = .error .notFound :=
  ⟨vault_unsearchable, vaults_equalOutside, by decide, by decide, by decide⟩

end FacetOS.FileView
