import FacetOS.FileView.Operations
import FacetOS.FileView.Search

/-!
# Content noninterference

Two archives that differ only in bytes their reader may not see, and two user
tables that differ only in password hashes, give the same answers to every
sequence of operations of an ordinary user.  The runs are related node by node:
a node that has been handed out has passed a search, so its contents can only
differ if reading it is refused.
-/

namespace FacetOS.FileView

open Initrd Paths
open Rpc (FacetError)
open Config (FacetConfigUser)

/-! ## Differences a reader may not see -/

def mayRead (credentials : Credentials) (entry : InitrdEntry) : Bool :=
  modeAllows entry.mode entry.uid entry.gid credentials.uid credentials.gid credentials.admin 4

/-- The credentials may not read this file, or not search a directory above it. -/
def Protected (initrd : FacetInitrd) (credentials : Credentials) (entry : InitrdEntry) : Prop :=
  mayRead credentials entry = false
    ∨ ∃ directory, Unsearchable initrd credentials directory
        ∧ pathBelow directory.path entry.path ≠ none

/-- Everything but the contents agrees. -/
structure SameOutside (left right : InitrdEntry) : Prop where
  path : left.path = right.path
  directory : left.directory = right.directory
  mode : left.mode = right.mode
  uid : left.uid = right.uid
  gid : left.gid = right.gid
  size : left.size = right.size

/-- The entries agree, except perhaps in the contents of a protected file. -/
structure SameExceptProtected (initrd : FacetInitrd) (credentials : Credentials)
    (left right : InitrdEntry) : Prop extends SameOutside left right where
  contents : left.data = right.data
    ∨ (left.directory = false ∧ Protected initrd credentials left)

/-- Two archives with the same entries up to protected contents. -/
def ArchivesAgree (credentials : Credentials) (left right : FacetInitrd) : Prop :=
  List.Forall₂ (SameExceptProtected left credentials) left.entries right.entries

/-- Two users that differ at most in hashes of one length. -/
structure SameExceptHash (left right : FacetConfigUser) : Prop where
  others : { left with passwordHash := right.passwordHash } = right
  length : left.passwordHash.map List.length = right.passwordHash.map List.length

def UsersAgree (left right : List FacetConfigUser) : Prop :=
  List.Forall₂ SameExceptHash left right

/-! ## Related stores -/

/-- What relates two nodes that have been handed out. -/
def TargetsAgree (credentials : Credentials) : NodeTarget → NodeTarget → Prop
  | .backing left, .backing right =>
    SameOutside left right ∧ (left.data = right.data ∨ mayRead credentials left = false)
  | .synthetic left, .synthetic right => left = right
  | _, _ => False

structure NodesAgree (credentials : Credentials) (left right : CredentialNode) : Prop where
  target : TargetsAgree credentials left.target right.target
  directory : left.directory = right.directory
  handle : left.handle = right.handle

structure StoresAgree (left right : CredentialFileStore) : Prop where
  credentials : left.credentials = right.credentials
  notAdmin : left.credentials.admin = false
  archives : ArchivesAgree left.credentials left.initrd right.initrd
  passwd : left.virtualPasswd = right.virtualPasswd
  shadow : left.virtualShadow.length = right.virtualShadow.length
  nodes : List.Forall₂ (NodesAgree left.credentials) left.nodes right.nodes

/-! ## Lookups in two related lists -/

/-- Nothing is found on either side, or related values on both. -/
def FoundAgree {α β : Type} (related : α → β → Prop) (left : Option α) (right : Option β) :
    Prop :=
  (left = none ∧ right = none) ∨ ∃ a b, left = some a ∧ right = some b ∧ related a b

theorem FoundAgree.bind {α β γ δ : Type} {related : α → β → Prop} {next : γ → δ → Prop}
    {left : Option α} {right : Option β} {f : α → Option γ} {g : β → Option δ}
    (hfound : FoundAgree related left right)
    (hnext : ∀ a b, related a b → FoundAgree next (f a) (g b)) :
    FoundAgree next (left.bind f) (right.bind g) := by
  obtain ⟨rfl, rfl⟩ | ⟨a, b, rfl, rfl, hrelated⟩ := hfound
  · exact .inl ⟨rfl, rfl⟩
  · exact hnext a b hrelated

/-- The same failure on both sides, or related values. -/
def ResultsAgree {α β : Type} (related : α → β → Prop) (left : Except FacetError α)
    (right : Except FacetError β) : Prop :=
  (∃ failure, left = .error failure ∧ right = .error failure)
    ∨ ∃ a b, left = .ok a ∧ right = .ok b ∧ related a b

variable {first second : NodeTarget} {α : Type}

theorem find?_related {β : Type} {related : α → β → Prop} {left : List α} {right : List β}
    (hlists : List.Forall₂ related left right) {keepLeft : α → Bool} {keepRight : β → Bool}
    (hkeep : ∀ a b, related a b → keepLeft a = keepRight b) :
    FoundAgree related (left.find? keepLeft) (right.find? keepRight) := by
  induction hlists with
  | nil => exact Or.inl ⟨rfl, rfl⟩
  | @cons first second _ _ hhead _ ih =>
    rw [List.find?_cons, List.find?_cons, ← hkeep first second hhead]
    cases keepLeft first with
    | true => exact Or.inr ⟨first, second, rfl, rfl, hhead⟩
    | false => exact ih

theorem filterMap_related {β γ : Type} {related : α → β → Prop} {left : List α} {right : List β}
    (hlists : List.Forall₂ related left right) {f : α → Option γ} {g : β → Option γ}
    (heq : ∀ a b, related a b → f a = g b) :
    left.filterMap f = right.filterMap g := by
  induction hlists with
  | nil => rfl
  | cons hhead _ ih => rw [List.filterMap_cons, List.filterMap_cons, ← heq _ _ hhead, ih]

section Archives

variable {credentials : Credentials} {left right : FacetInitrd}
  (harchives : ArchivesAgree credentials left right)
include harchives

theorem findEntry_agree (path : List UInt8) (directory : Bool) :
    FoundAgree (SameExceptProtected left credentials) (findEntry left path directory)
      (findEntry right path directory) := by
  unfold findEntry
  split
  · exact Or.inl ⟨rfl, rfl⟩
  · apply find?_related harchives
    intro first second hsame
    rw [hsame.path, hsame.directory]

theorem facetInitrdOpenNode_agree (path : List UInt8) (directory : Bool) :
    ResultsAgree (SameExceptProtected left credentials)
      (facetInitrdOpenNode left [slash] path directory)
      (facetInitrdOpenNode right [slash] path directory) := by
  unfold facetInitrdOpenNode
  cases resolvePath [slash] path with
  | error failure => exact Or.inl ⟨failure, rfl, rfl⟩
  | ok resolved =>
    obtain ⟨output, requiresDirectory⟩ := resolved
    by_cases hkind : (requiresDirectory && !directory) = true
    · simp only [if_pos hkind]
      exact Or.inl ⟨.notFound, rfl, rfl⟩
    · simp only [if_neg hkind]
      obtain ⟨hleft, hright⟩ | ⟨first, second, hleft, hright, hsame⟩ :=
        findEntry_agree harchives output directory <;> rw [hleft, hright]
      · exact Or.inl ⟨.notFound, rfl, rfl⟩
      · exact Or.inr ⟨first, second, rfl, rfl, hsame⟩

omit harchives in
theorem SameOutside.checkAccess_eq {first second : InitrdEntry}
    (hsame : SameOutside first second) (requested : UInt32) :
    checkAccess credentials first requested = checkAccess credentials second requested := by
  rw [checkAccess, checkAccess, hsame.mode, hsame.uid, hsame.gid]

theorem checkSearch_agree (path : List UInt8) (includeTarget : Bool) :
    checkSearch left credentials path includeTarget
      = checkSearch right credentials path includeTarget := by
  have hstep : checkSearchStep left credentials = checkSearchStep right credentials := by
    funext ancestor
    unfold checkSearchStep
    obtain ⟨failure, hleft, hright⟩ | ⟨first, second, hleft, hright, hsame⟩ :=
      facetInitrdOpenNode_agree harchives ancestor true <;> rw [hleft, hright]
    exact hsame.toSameOutside.checkAccess_eq 1
  rw [checkSearch, checkSearch, hstep]

omit harchives in
/-- Contents that survive a search are only hidden by the file's own mode. -/
theorem contents_of_search {path : List UInt8} {directory includeTarget : Bool}
    {first second : InitrdEntry} (hsame : SameExceptProtected left credentials first second)
    (hopen : facetInitrdOpenNode left [slash] path directory = .ok first)
    (hsearch : checkSearch left credentials first.path includeTarget = .ok ()) :
    first.data = second.data ∨ mayRead credentials first = false := by
  obtain hequal | ⟨-, hunreadable | ⟨ancestor, hancestor, hpath⟩⟩ := hsame.contents
  · exact Or.inl hequal
  · exact Or.inr hunreadable
  · obtain ⟨rest, hrest⟩ := Option.ne_none_iff_exists'.mp hpath
    exact absurd hsearch
      (hancestor.checkSearch_ne_ok (canonicalPath_of_open hopen) hrest includeTarget)

theorem facetInitrdNodeList_agree
    {first second : InitrdEntry} (hsame : SameOutside first second) (cursor maximum : ℕ) :
    facetInitrdNodeList left first cursor maximum
      = facetInitrdNodeList right second cursor maximum := by
  have hlength : left.entries.length = right.entries.length := harchives.length_eq
  have hchildren : left.entries.filterMap (listedChild first.path)
      = right.entries.filterMap (listedChild second.path) := by
    apply filterMap_related harchives
    intro child other hchild
    rw [listedChild, listedChild, hsame.path, hchild.path, hchild.directory]
  rw [facetInitrdNodeList, facetInitrdNodeList, hsame.directory, hlength, hchildren]

end Archives

/-! ## One operation -/

section Steps

variable {left right : CredentialFileStore} {credentials : Credentials}

/-- Related nodes are entries that agree or one synthetic node. -/
theorem TargetsAgree.cases (htargets : TargetsAgree credentials first second) :
    (∃ entry other, first = .backing entry ∧ second = .backing other ∧ SameOutside entry other ∧
        (entry.data = other.data ∨ mayRead credentials entry = false)) ∨
      ∃ node, first = .synthetic node ∧ second = .synthetic node := by
  cases first <;> cases second
  case backing.backing entry other => exact .inl ⟨entry, other, rfl, rfl, htargets⟩
  case synthetic.synthetic node other => exact .inr ⟨node, rfl, congrArg _ htargets.symm⟩
  all_goals exact htargets.elim

theorem TargetsAgree.path_eq
    (htargets : TargetsAgree credentials first second) : first.path = second.path := by
  obtain ⟨entry, other, rfl, rfl, hsame, -⟩ | ⟨node, rfl, rfl⟩ := htargets.cases
  · exact hsame.path
  · rfl

theorem NodesAgree.path_eq {first second : CredentialNode}
    (hnodes : NodesAgree credentials first second) : first.path = second.path :=
  hnodes.target.path_eq

theorem TargetsAgree.nodeMetadata_eq (htargets : TargetsAgree credentials first second) :
    nodeMetadata first = nodeMetadata second := by
  obtain ⟨entry, other, rfl, rfl, hsame, -⟩ | ⟨node, rfl, rfl⟩ := htargets.cases
  · simp only [nodeMetadata]
    rw [hsame.mode, hsame.uid, hsame.gid]
  · rfl

/-- The same answer, and stores that still agree. -/
def StepsAgree {α : Type} (first second : Except FacetError α × CredentialFileStore) : Prop :=
  first.1 = second.1 ∧ StoresAgree first.2 second.2

variable (hstores : StoresAgree left right)
include hstores

theorem StoresAgree.wrapNode
    (htargets : TargetsAgree left.credentials first second) (directory : Bool) :
    (wrapNode left first directory).1 = (wrapNode right second directory).1
      ∧ StoresAgree (wrapNode left first directory).2 (wrapNode right second directory).2 := by
  have hfound : FoundAgree (NodesAgree left.credentials)
      (left.nodes.find? (fun node => node.directory == directory && node.path == first.path))
      (right.nodes.find? (fun node =>
        node.directory == directory && node.path == second.path)) := by
    apply find?_related hstores.nodes
    intro node other hnode
    rw [hnode.directory, hnode.path_eq, htargets.path_eq]
  unfold FileView.wrapNode
  obtain ⟨hleft, hright⟩ | ⟨node, other, hleft, hright, hnode⟩ := hfound <;> rw [hleft, hright]
  · refine ⟨hstores.nodes.length_eq, { hstores with nodes := ?_ }⟩
    exact .cons ⟨htargets, rfl, hstores.nodes.length_eq⟩ hstores.nodes
  · exact ⟨hnode.handle, hstores⟩

theorem StoresAgree.openArchived (path : List UInt8) (directory : Bool) :
    StepsAgree (openArchived left path directory) (openArchived right path directory) := by
  unfold FileView.openArchived
  obtain ⟨failure, hleft, hright⟩ | ⟨first, second, hleft, hright, hsame⟩ :=
    facetInitrdOpenNode_agree hstores.archives path directory <;> rw [hleft, hright]
  · exact ⟨rfl, hstores⟩
  dsimp only
  rw [← hstores.credentials, ← hsame.path,
    ← checkSearch_agree hstores.archives first.path directory]
  cases hsearch : checkSearch left.initrd left.credentials first.path directory with
  | error failure => exact ⟨rfl, hstores⟩
  | ok =>
    have htargets : TargetsAgree left.credentials (.backing first) (.backing second) :=
      ⟨hsame.toSameOutside, contents_of_search hsame hleft hsearch⟩
    have hwrapped := hstores.wrapNode htargets directory
    exact ⟨congrArg Except.ok hwrapped.1, hwrapped.2⟩

theorem StoresAgree.openNode (requested path : List UInt8) (directory : Bool) :
    StepsAgree (openNode left requested path directory)
      (openNode right requested path directory) := by
  unfold FileView.openNode
  cases syntheticForPath requested directory with
  | none => exact hstores.openArchived path directory
  | some node =>
    have htargets : TargetsAgree left.credentials (.synthetic node) (.synthetic node) := rfl
    have hwrapped := hstores.wrapNode htargets directory
    exact ⟨congrArg Except.ok hwrapped.1, hwrapped.2⟩

theorem StoresAgree.storeOpen (path : List UInt8) (directory : Bool) :
    StepsAgree (storeOpen left path directory) (storeOpen right path directory) := by
  unfold FileView.storeOpen
  split
  · exact ⟨rfl, hstores⟩
  · exact hstores.openNode _ _ directory

theorem StoresAgree.withNode (handle : ℕ) (kind : Option Bool)
    {answerLeft answerRight : CredentialNode → Except FacetError α}
    (hanswer : ∀ node other, NodesAgree left.credentials node other →
      answerLeft node = answerRight other) :
    withNode left handle kind answerLeft = withNode right handle kind answerRight := by
  have hfound : FoundAgree (NodesAgree left.credentials)
      (left.nodes.find? (fun node =>
        node.handle == handle && kind.all (fun directory => node.directory == directory)))
      (right.nodes.find? (fun node =>
        node.handle == handle && kind.all (fun directory => node.directory == directory))) := by
    apply find?_related hstores.nodes
    intro node other hnode
    rw [hnode.directory, hnode.handle]
  unfold FileView.withNode
  obtain ⟨hleft, hright⟩ | ⟨node, other, hleft, hright, hnode⟩ := hfound <;> rw [hleft, hright]
  exact hanswer node other hnode

theorem StoresAgree.openFrom (handle : ℕ) (path : List UInt8) (directory : Bool) :
    StepsAgree (openFrom left handle path directory) (openFrom right handle path directory) := by
  have hbase : FileView.withNode left handle (some true) (fun node => .ok node.path)
      = FileView.withNode right handle (some true) (fun node => .ok node.path) :=
    hstores.withNode handle (some true) (fun node other hnode => congrArg Except.ok hnode.path_eq)
  rw [FileView.openFrom, FileView.openFrom, ← hbase]
  cases FileView.withNode left handle (some true) (fun node => .ok node.path) with
  | error failure => exact ⟨rfl, hstores⟩
  | ok base =>
    dsimp only [directoryOpen]
    split
    · exact ⟨rfl, hstores⟩
    · exact hstores.openNode _ _ directory

section

variable (htargets : TargetsAgree left.credentials first second)
include htargets

theorem StoresAgree.fileSize :
    fileSize left first = fileSize right second := by
  obtain ⟨entry, other, rfl, rfl, hsame, -⟩ | ⟨node, rfl, rfl⟩ := htargets.cases
  · simp only [FileView.fileSize, facetInitrdNodeSize]
    rw [hsame.directory, hsame.size]
  · cases node with
    | passwd => simp [FileView.fileSize, syntheticContents, hstores.passwd]
    | shadow => simp [FileView.fileSize, syntheticContents, hstores.shadow]
    | _ => rfl

theorem StoresAgree.fileRead (offset maximum : ℕ) :
    fileRead left offset maximum first = fileRead right offset maximum second := by
  have hright : right.credentials.admin = false := hstores.credentials ▸ hstores.notAdmin
  obtain ⟨entry, other, rfl, rfl, hsame, hcontents⟩ | ⟨node, rfl, rfl⟩ := htargets.cases
  · simp only [FileView.fileRead]
    rw [← hstores.credentials, ← hsame.checkAccess_eq 4]
    cases hcontents with
    | inl hdata =>
      have hread : facetInitrdNodeRead entry offset maximum
          = facetInitrdNodeRead other offset maximum := by
        rw [facetInitrdNodeRead, facetInitrdNodeRead, hsame.directory, hsame.size, hdata]
      rw [hread]
    | inr hunreadable =>
      have hrefused : modeAllows entry.mode entry.uid entry.gid left.credentials.uid
          left.credentials.gid left.credentials.admin 4 = false := hunreadable
      simp [checkAccess, hrefused]
  · cases node with
    | etcDirectory => rfl
    | passwd => simp [FileView.fileRead, syntheticContents, hstores.passwd]
    | shadow => simp [FileView.fileRead, syntheticContents, hstores.notAdmin, hright]
    | fstab => simp [FileView.fileRead, syntheticContents]

theorem StoresAgree.directoryList (cursor maximum : ℕ) :
    directoryList left cursor maximum first = directoryList right cursor maximum second := by
  obtain ⟨entry, other, rfl, rfl, hsame, -⟩ | ⟨node, rfl, rfl⟩ := htargets.cases
  · simp only [FileView.directoryList]
    rw [← hstores.credentials, ← hsame.checkAccess_eq 5, hsame.path,
      facetInitrdNodeList_agree hstores.archives hsame]
  · cases node <;> rfl

end

theorem StoresAgree.inspect (operation : Operation) :
    inspect left operation = inspect right operation := by
  cases operation with
  | list handle cursor maximum =>
    exact hstores.withNode _ _ fun _ _ hnode => by rw [hstores.directoryList hnode.target]
  | getSize handle =>
    exact hstores.withNode _ _ fun _ _ hnode => by rw [hstores.fileSize hnode.target]
  | readAt handle offset maximum =>
    exact hstores.withNode _ _ fun _ _ hnode => by rw [hstores.fileRead hnode.target]
  | writeAt handle offset data => exact hstores.withNode _ _ fun _ _ _ => rfl
  | getPath handle => exact hstores.withNode _ _ fun _ _ hnode => by rw [hnode.path_eq]
  | getMetadata handle =>
    exact hstores.withNode _ _ fun _ _ hnode => by rw [hnode.target.nodeMetadata_eq]
  | _ => rfl

/-- One operation answers alike on related stores and keeps them related. -/
theorem StoresAgree.perform (operation : Operation) :
    StepsAgree (perform left operation) (perform right operation) := by
  have hopen : ∀ {first second : Except FacetError ℕ × CredentialFileStore},
      StepsAgree first second → StepsAgree (openReply first) (openReply second) :=
    fun hsteps => ⟨congrArg (Except.map Reply.opened) hsteps.1, hsteps.2⟩
  have hinspect := hstores.inspect operation
  cases operation with
  | storeOpenFile path => exact hopen (hstores.storeOpen path false)
  | storeOpenDirectory path => exact hopen (hstores.storeOpen path true)
  | directoryOpenFile handle path => exact hopen (hstores.openFrom handle path false)
  | directoryOpenDirectory handle path => exact hopen (hstores.openFrom handle path true)
  | _ => exact ⟨hinspect, hstores⟩

end Steps

/-! ## Creation -/

/-- Texts that print the same account line and shadow lines of one length. -/
structure TextsAgree (left right : UserTexts) : Prop where
  name : left.name = right.name
  home : left.home = right.home
  shell : left.shell = right.shell
  hash : left.hash.length = right.hash.length
  uid : left.uid = right.uid
  gid : left.gid = right.gid

theorem SameExceptHash.userTexts {left right : FacetConfigUser}
    (hsame : SameExceptHash left right) :
    FoundAgree TextsAgree (userTexts left) (userTexts right) := by
  have hlength := hsame.length
  rw [← hsame.others]
  unfold FileView.userTexts
  cases left.name <;> [exact Or.inl ⟨rfl, rfl⟩; skip]
  cases left.homePath <;> [exact Or.inl ⟨rfl, rfl⟩; skip]
  cases left.posixShell <;> [exact Or.inl ⟨rfl, rfl⟩; skip]
  cases hleft : left.passwordHash <;> cases hright : right.passwordHash <;>
    simp only [hleft, hright, Option.map_some, Option.map_none, reduceCtorEq, Option.some.injEq]
      at hlength
  · exact Or.inl ⟨rfl, rfl⟩
  · exact Or.inr ⟨_, _, rfl, rfl, ⟨rfl, rfl, rfl, hlength, rfl, rfl⟩⟩

theorem UsersAgree.mapM_userTexts {left right : List FacetConfigUser}
    (husers : UsersAgree left right) :
    FoundAgree (List.Forall₂ TextsAgree) (left.mapM userTexts) (right.mapM userTexts) := by
  induction husers with
  | nil => exact Or.inr ⟨[], [], rfl, rfl, .nil⟩
  | @cons first second _ _ hhead _ ih =>
    rw [List.mapM_cons, List.mapM_cons]
    exact hhead.userTexts.bind fun texts others hagree => ih.bind fun rest otherRest hrest =>
      .inr ⟨_, _, rfl, rfl, .cons hagree hrest⟩

theorem TextsAgree.passwdLine_eq {left right : UserTexts} (htexts : TextsAgree left right) :
    passwdLine left = passwdLine right := by
  rw [passwdLine, passwdLine, htexts.name, htexts.uid, htexts.gid, htexts.home, htexts.shell]

theorem TextsAgree.length_shadowLine {left right : UserTexts} (htexts : TextsAgree left right) :
    (shadowLine left).length = (shadowLine right).length := by
  simp only [shadowLine, List.length_append, htexts.name, htexts.hash]

section

variable {left right : List UserTexts} (htexts : List.Forall₂ TextsAgree left right)
include htexts

theorem passwdSize_agree : passwdSize left = passwdSize right := by
  induction htexts with
  | nil => rfl
  | cons hhead _ ih =>
    simp only [passwdSize, List.map_cons, List.sum_cons, hhead.name, hhead.home, hhead.shell]
      at ih ⊢
    omega

theorem shadowSize_agree : shadowSize left = shadowSize right := by
  induction htexts with
  | nil => rfl
  | cons hhead _ ih =>
    simp only [shadowSize, List.map_cons, List.sum_cons, hhead.name, hhead.hash] at ih ⊢
    omega

/-- The rendered account files of both tables: equal, and of equal length. -/
def FilesAgree (left right : List UInt8 × List UInt8) : Prop :=
  left.1 = right.1 ∧ left.2.length = right.2.length

theorem printUsers_agree (passwdRoom shadowRoom : ℕ)
    (passwd : List UInt8) {shadow other : List UInt8} (hshadow : shadow.length = other.length) :
    FoundAgree FilesAgree (printUsers passwdRoom shadowRoom left passwd shadow)
      (printUsers passwdRoom shadowRoom right passwd other) := by
  induction htexts generalizing passwd shadow other with
  | nil => exact Or.inr ⟨_, _, rfl, rfl, rfl, hshadow⟩
  | @cons first second _ _ hhead _ ih =>
    rw [printUsers, printUsers, hhead.passwdLine_eq]
    cases printLine passwdRoom passwd (passwdLine second) with
    | none => exact Or.inl ⟨rfl, rfl⟩
    | some grown =>
      have hline := hhead.length_shadowLine
      by_cases hfull : shadowRoom - shadow.length ≤ (shadowLine first).length
      · have hfullOther : shadowRoom - other.length ≤ (shadowLine second).length := by omega
        simp only [printLine, if_pos hfull, if_pos hfullOther]
        exact Or.inl ⟨rfl, rfl⟩
      · have hroomOther : ¬shadowRoom - other.length ≤ (shadowLine second).length := by omega
        simp only [printLine, if_neg hfull, if_neg hroomOther]
        exact ih grown (by simp only [List.length_append]; omega)

end

theorem UsersAgree.renderVirtualCredentials {left right : List FacetConfigUser}
    (husers : UsersAgree left right) :
    FoundAgree FilesAgree (renderVirtualCredentials left) (renderVirtualCredentials right) := by
  unfold FileView.renderVirtualCredentials
  by_cases hempty : left = []
  · have hright : right = [] := List.forall₂_nil_left_iff.mp (hempty ▸ husers)
    rw [if_pos hempty, if_pos hright]
    exact Or.inr ⟨_, _, rfl, rfl, rfl, rfl⟩
  · have hright : right ≠ [] := fun heq => hempty (List.forall₂_nil_right_iff.mp (heq ▸ husers))
    rw [if_neg hempty, if_neg hright]
    refine husers.mapM_userTexts.bind fun texts others hagree => ?_
    rw [passwdSize_agree hagree, shadowSize_agree hagree]
    exact printUsers_agree hagree _ _ [] rfl

/-- Both stores are created, and agree, or neither is. -/
theorem credentialFileStoreCreate_agree
    (hadmin : credentials.admin = false) {left right : FacetInitrd}
    (harchives : ArchivesAgree credentials left right) {users others : List FacetConfigUser}
    (husers : UsersAgree users others) :
    FoundAgree StoresAgree (credentialFileStoreCreate left credentials users)
      (credentialFileStoreCreate right credentials others) := by
  unfold credentialFileStoreCreate
  obtain ⟨hleft, hright⟩ | ⟨files, otherFiles, hleft, hright, hpasswd, hshadow⟩ :=
    husers.renderVirtualCredentials <;> rw [hleft, hright]
  · exact .inl ⟨rfl, rfl⟩
  · exact .inr ⟨_, _, rfl, rfl, rfl, hadmin, harchives, hpasswd, hshadow, .nil⟩

/-! ## Whole runs -/

/-- What a caller sees of a store: nothing if it could not be created, else the
answers to a sequence of operations. -/
def observe (initrd : FacetInitrd) (credentials : Credentials) (users : List FacetConfigUser)
    (operations : List Operation) : Option (List (Except FacetError Reply)) :=
  (credentialFileStoreCreate initrd credentials users).map (fun store =>
    (performAll store operations).1)

/-- No sequence of operations of a non-administrator tells two archives apart
that differ only in protected contents, nor two user tables that differ only in
hashes of equal length. -/
theorem observe_noninterference {credentials : Credentials}
    (hadmin : credentials.admin = false) {left right : FacetInitrd}
    (harchives : ArchivesAgree credentials left right)
    {users others : List FacetConfigUser} (husers : UsersAgree users others)
    (operations : List Operation) :
    observe left credentials users operations = observe right credentials others operations := by
  unfold observe
  obtain ⟨hstore, hother⟩ | ⟨store, other, hstore, hother, hagree⟩ :=
    credentialFileStoreCreate_agree hadmin harchives husers <;> rw [hstore, hother]
  have hanswers := (Runs.outputs_related (fun first second operation
    (hrelated : StoresAgree first second) => hrelated.perform operation) hagree operations).1
  exact congrArg some hanswers

/-- An archive with one file that only its owner may read. -/
def secretArchive (contents : List UInt8) : FacetInitrd :=
  FacetInitrd.rootOnly.append
    { path := ascii "/secret"
      data := contents
      directory := false
      mode := 0o100600
      uid := 0
      gid := 0 }
    ⟨rfl, show 0 ∉ ascii "/secret" by decide⟩
    (show ascii "/secret" ∉ FacetInitrd.rootOnly.entries.map InitrdEntry.path by decide)

def userWithHash (hash : List UInt8) : FacetConfigUser where
  name := some (ascii "u")
  passwordHash := some hash
  homePath := some (ascii "/")
  posixShell := some (ascii "/s")

theorem observe_noninterference_secret :
    observe (secretArchive [1, 2]) ⟨1000, 1000, false⟩ [userWithHash [5]]
        [.storeOpenFile (ascii "/secret"), .getSize 0, .readAt 0 0 2]
      = observe (secretArchive [3, 4]) ⟨1000, 1000, false⟩ [userWithHash [6]]
        [.storeOpenFile (ascii "/secret"), .getSize 0, .readAt 0 0 2] := by
  have hsecret : SameExceptProtected (secretArchive [1, 2]) ⟨1000, 1000, false⟩
      ⟨ascii "/secret", [1, 2], false, 0o100600, 0, 0⟩
      ⟨ascii "/secret", [3, 4], false, 0o100600, 0, 0⟩ :=
    ⟨⟨rfl, rfl, rfl, rfl, rfl, rfl⟩, Or.inr ⟨rfl, Or.inl (by decide)⟩⟩
  have hroot : SameExceptProtected (secretArchive [1, 2]) ⟨1000, 1000, false⟩
      rootEntry rootEntry :=
    ⟨⟨rfl, rfl, rfl, rfl, rfl, rfl⟩, Or.inl rfl⟩
  have harchives : ArchivesAgree ⟨1000, 1000, false⟩ (secretArchive [1, 2])
      (secretArchive [3, 4]) := .cons hroot (.cons hsecret .nil)
  exact observe_noninterference rfl harchives (.cons ⟨rfl, rfl⟩ .nil) _

example :
    observe (secretArchive [1, 2]) ⟨1000, 1000, false⟩ [userWithHash [5]]
        [.storeOpenFile (ascii "/secret"), .getSize 0, .readAt 0 0 2]
      = some [.ok (.opened 0), .ok (.size 2), .error .accessDenied] := by
  decide

end FacetOS.FileView
