import FacetOS.Core.Passes
import FacetOS.Initrd.Archive
import FacetOS.Rpc.Common

/-!
# Names and nodes of the archive

`resolve_path` turns a caller's counted string into a canonical absolute path
and `find_entry` compares that path with the table.  Nodes are the entries
themselves: the table never changes after it has been read.
-/

namespace FacetOS.Initrd

open Paths
open Passes (bind_eq_ok ite_error_eq_ok map_eq_ok)
open Rpc (FacetError)

/-! ## Finding an entry -/

/-- The first entry of the requested kind with exactly this path. -/
def findEntry (initrd : FacetInitrd) (path : List UInt8) (directory : Bool) :
    Option InitrdEntry :=
  if path.head? ≠ some slash then none
  else initrd.entries.find? (fun entry => entry.directory == directory && entry.path == path)

variable {stack : List (List UInt8)} {path output : List UInt8}

theorem findEntry_some {initrd : FacetInitrd} {directory : Bool} {entry : InitrdEntry}
    (hfind : findEntry initrd path directory = some entry) :
    entry ∈ initrd.entries ∧ entry.path = path ∧ entry.directory = directory := by
  unfold findEntry at hfind
  split at hfind
  · contradiction
  · have hmatch := List.find?_some hfind
    simp only [Bool.and_eq_true, beq_iff_eq] at hmatch
    exact ⟨List.mem_of_find?_eq_some hfind, hmatch.2, hmatch.1⟩

/-- Paths are unique, so an entry is found under its own path and kind. -/
theorem findEntry_eq_some_iff {initrd : FacetInitrd} {directory : Bool} {entry : InitrdEntry} :
    findEntry initrd path directory = some entry
      ↔ entry ∈ initrd.entries ∧ entry.path = path ∧ entry.directory = directory := by
  constructor
  · exact findEntry_some
  rintro ⟨hmem, rfl, rfl⟩
  cases hfind : findEntry initrd entry.path entry.directory with
  | none =>
    unfold findEntry at hfind
    rw [if_neg (by simpa using (initrd.stored entry hmem).absolute)] at hfind
    have habsent := List.find?_eq_none.mp hfind entry hmem
    simp at habsent
  | some found =>
    obtain ⟨hfound, hpath, -⟩ := findEntry_some hfind
    rw [Option.some.injEq]
    exact List.inj_on_of_nodup_map initrd.distinct hfound hmem hpath

/-! ## Resolving a path -/

/-- The last byte is a separator, or the last component is `.` or `..`. -/
def pathRequiresDirectory (path : List UInt8) : Bool :=
  path.getLast? == some slash
    || path.rtakeWhile (fun byte => byte ≠ slash) == [dot]
    || path.rtakeWhile (fun byte => byte ≠ slash) == [dot, dot]

/-- The bytes a separator takes: none directly after the root. -/
def separatorLength (output : List UInt8) : ℕ :=
  if output.length = 1 then 0 else 1

/-- One component of the resolution loop: the output may not outgrow the limit. -/
def resolveStep (output component : List UInt8) : Except FacetError (List UInt8) :=
  if component = [dot] then .ok output
  else if component = [dot, dot] then .ok (retreat slash 1 output)
  else
    if facetPathMax < output.length + separatorLength output
        ∨ facetPathMax - (output.length + separatorLength output) < component.length then
      .error .invalidArgument
    else .ok (advance slash 1 output component)

/-- Resolve a caller path against an absolute directory.  The flag tells
whether the spelling only fits a directory. -/
def resolvePath (base path : List UInt8) : Except FacetError (List UInt8 × Bool) :=
  if base.head? ≠ some slash ∨ path = [] ∨ facetPathMax < path.length ∨ 0 ∈ path then
    .error .invalidArgument
  else if path.head? ≠ some slash ∧ facetPathMax < base.length then .error .invalidArgument
  else
    let start := if path.head? = some slash then [slash] else base
    ((components slash path).foldlM resolveStep start).map
      (fun output => (output, pathRequiresDirectory path))

/-- The absolute path with these components. -/
def absolutePath (stack : List (List UInt8)) : List UInt8 :=
  rendered slash [slash] stack

/-- A stack of names, as resolution leaves it. -/
def NameStack (stack : List (List UInt8)) : Prop :=
  ∀ name ∈ stack, Name slash dot name

theorem resolveStep_ok {component next : List UInt8}
    (hstep : resolveStep output component = .ok next) :
    next = normalizeStep slash dot 1 output component := by
  unfold resolveStep at hstep
  unfold normalizeStep
  split at hstep
  · rename_i hdot
    rw [if_pos hdot]
    exact (Except.ok.inj hstep).symm
  · rename_i hdot
    rw [if_neg hdot]
    split at hstep
    · rename_i hparent
      rw [if_pos hparent]
      exact (Except.ok.inj hstep).symm
    · rename_i hparent
      rw [if_neg hparent]
      split at hstep
      · contradiction
      · exact (Except.ok.inj hstep).symm

/-- A step succeeds exactly when its result fits. -/
theorem resolveStep_eq (houtput : output.length ≤ facetPathMax) (component : List UInt8) :
    resolveStep output component =
      if (normalizeStep slash dot 1 output component).length ≤ facetPathMax then
        .ok (normalizeStep slash dot 1 output component)
      else .error .invalidArgument := by
  unfold resolveStep normalizeStep
  by_cases hdot : component = [dot]
  · rw [if_pos hdot, if_pos hdot, if_pos houtput]
  rw [if_neg hdot, if_neg hdot]
  by_cases hparent : component = [dot, dot]
  · rw [if_pos hparent, if_pos hparent, if_pos ((length_retreat_le _ _ _).trans houtput)]
  rw [if_neg hparent, if_neg hparent, length_advance, separatorLength]
  split_ifs <;> first | rfl | omega

theorem resolveStep_absolutePath (hstack : NameStack stack)
    (hfits : (absolutePath stack).length ≤ facetPathMax) (part : List UInt8) :
    resolveStep (absolutePath stack) part =
      if (absolutePath (enter dot stack part)).length ≤ facetPathMax then
        .ok (absolutePath (enter dot stack part))
      else .error .invalidArgument := by
  have hstep : normalizeStep slash dot 1 (absolutePath stack) part
      = absolutePath (enter dot stack part) :=
    normalizeStep_rendered [slash] (fun name hname => (hstack name hname).1) part
  rw [resolveStep_eq hfits, hstep]

theorem foldlM_resolveStep_ok {parts : List (List UInt8)} {start : List UInt8}
    (hfold : parts.foldlM resolveStep start = .ok output) :
    output = parts.foldl (normalizeStep slash dot 1) start := by
  induction parts generalizing start with
  | nil => exact (Except.ok.inj hfold).symm
  | cons part parts ih =>
    obtain ⟨next, hstep, hrest⟩ := bind_eq_ok.mp hfold
    rw [List.foldl_cons, ← resolveStep_ok hstep]
    exact ih hrest

/-- What a successful resolution has checked. -/
theorem resolvePath_eq_ok {base : List UInt8} {requiresDirectory : Bool}
    (hresolve : resolvePath base path = .ok (output, requiresDirectory)) :
    path ≠ [] ∧ 0 ∉ path ∧ requiresDirectory = pathRequiresDirectory path
      ∧ (components slash path).foldlM resolveStep
        (if path.head? = some slash then [slash] else base) = .ok output := by
  simp only [resolvePath, ite_error_eq_ok, map_eq_ok, not_or] at hresolve
  obtain ⟨⟨-, hempty, -, hzero⟩, -, _, hfold, hresult⟩ := hresolve
  cases hresult
  exact ⟨hempty, hzero, rfl, hfold⟩

/-- A resolved path is the walk from the starting directory along the requested
components. -/
theorem resolvePath_ok {requiresDirectory : Bool} (hstack : NameStack stack)
    (hresolve : resolvePath (absolutePath stack) path = .ok (output, requiresDirectory)) :
    output = absolutePath
      (walk dot (if path.head? = some slash then [] else stack) (components slash path)) := by
  have hstart : (if path.head? = some slash then [slash] else absolutePath stack)
      = rendered slash [slash] (if path.head? = some slash then [] else stack) := by
    split <;> rfl
  have hnames : NameStack (if path.head? = some slash then [] else stack) := by
    split
    · simp [NameStack]
    · exact hstack
  rw [foldlM_resolveStep_ok (resolvePath_eq_ok hresolve).2.2.2, hstart]
  exact foldl_normalizeStep_rendered [slash] hnames
    (fun part hpart => component_of_mem_components hpart)

theorem NameStack.concat {part : List UInt8} (hstack : NameStack (stack ++ [part])) :
    NameStack stack ∧ Name slash dot part :=
  ⟨fun name hname => hstack name (by simp [hname]), hstack part (by simp)⟩

theorem length_absolutePath_pos (stack : List (List UInt8)) :
    0 < (absolutePath stack).length := by
  simp [absolutePath, rendered]

theorem absolutePath_concat (stack : List (List UInt8)) (part : List UInt8) :
    absolutePath (stack ++ [part])
      = absolutePath stack ++ (if stack = [] then [] else [slash]) ++ part :=
  rendered_concat slash [slash] stack part

@[simp]
theorem head?_absolutePath (stack : List (List UInt8)) :
    (absolutePath stack).head? = some slash := by
  simp [absolutePath, rendered]

theorem components_absolutePath (hstack : NameStack stack) :
    components slash (absolutePath stack) = stack := by
  rw [absolutePath, rendered, List.singleton_append, components_separator_cons]
  exact components_intercalate (fun name hname => (hstack name hname).1)

/-- Distinct stacks have distinct paths. -/
theorem absolutePath_injective {left right : List (List UInt8)} (hleft : NameStack left)
    (hright : NameStack right) (heq : absolutePath left = absolutePath right) : left = right := by
  rw [← components_absolutePath hleft, heq, components_absolutePath hright]

theorem length_absolutePath_append_le (stack parts : List (List UInt8)) :
    (absolutePath stack).length ≤ (absolutePath (stack ++ parts)).length := by
  induction parts using List.reverseRecOn with
  | nil => simp
  | append_singleton parts last ih =>
    rw [← List.append_assoc, absolutePath_concat]
    simp only [List.length_append]
    omega

/-- Only the root's own path is spelt like a directory. -/
theorem pathRequiresDirectory_absolutePath (hstack : NameStack stack) :
    pathRequiresDirectory (absolutePath stack) = decide (stack = []) := by
  induction stack using List.reverseRecOn with
  | nil => decide
  | append_singleton start last ih =>
    obtain ⟨⟨hempty, hslash⟩, hdot, hparent⟩ := hstack.concat.2
    obtain ⟨front, hfront⟩ : ∃ front, absolutePath (start ++ [last]) = front ++ slash :: last := by
      rw [absolutePath_concat]
      by_cases hstart : start = []
      · exact ⟨[], by simp [hstart, absolutePath, rendered]⟩
      · exact ⟨absolutePath start, by simp [hstart]⟩
    have hreverse : ∀ byte ∈ last.reverse, (decide (byte ≠ slash)) = true := by
      intro byte hbyte
      have hne : byte ≠ slash := fun heq => hslash (heq ▸ List.mem_reverse.mp hbyte)
      simpa using hne
    have htake : (front ++ slash :: last).rtakeWhile (fun byte => byte ≠ slash) = last := by
      simp only [List.rtakeWhile, List.reverse_append, List.reverse_cons, List.append_assoc]
      rw [List.takeWhile_append_of_pos hreverse]
      simp
    have hlast : (front ++ slash :: last).getLast? ≠ some slash := by
      rw [List.append_cons, List.getLast?_append_of_ne_nil _ hempty]
      intro heq
      exact hslash (List.mem_of_getLast? heq)
    rw [hfront, pathRequiresDirectory, htake, beq_false_of_ne hlast, beq_false_of_ne hdot,
      beq_false_of_ne hparent]
    simp

theorem foldlM_resolveStep_names {parts : List (List UInt8)} (hnames : NameStack (stack ++ parts))
    (hlength : (absolutePath (stack ++ parts)).length ≤ facetPathMax) :
    parts.foldlM resolveStep (absolutePath stack) = .ok (absolutePath (stack ++ parts)) := by
  induction parts generalizing stack with
  | nil => simp [pure, Except.pure]
  | cons part parts ih =>
    have hpart := hnames part (by simp)
    have hstack : NameStack stack := fun name hname => hnames name (by simp [hname])
    have hshort := (length_absolutePath_append_le stack (part :: parts)).trans hlength
    rw [List.append_cons] at hnames hlength ⊢
    have hfits := (length_absolutePath_append_le (stack ++ [part]) parts).trans hlength
    have hstep : resolveStep (absolutePath stack) part = .ok (absolutePath (stack ++ [part])) := by
      rw [resolveStep_absolutePath hstack hshort, enter, if_neg hpart.2.1, if_neg hpart.2.2,
        if_pos hfits]
    rw [List.foldlM_cons, hstep]
    exact ih hnames hlength

/-- A canonical path that fits resolves to itself, from any directory. -/
theorem resolvePath_absolutePath {base : List UInt8} (hbase : base.head? = some slash)
    (hstack : NameStack stack) (hzero : 0 ∉ absolutePath stack)
    (hlength : (absolutePath stack).length ≤ facetPathMax) :
    resolvePath base (absolutePath stack) = .ok (absolutePath stack, decide (stack = [])) := by
  have hnonempty : absolutePath stack ≠ [] :=
    List.length_pos_iff.mp (length_absolutePath_pos stack)
  have hfold : stack.foldlM resolveStep (absolutePath []) = .ok (absolutePath stack) :=
    foldlM_resolveStep_names hstack hlength
  unfold resolvePath
  rw [if_neg (by simp [hbase, hnonempty, hzero, hlength]), if_neg (by simp)]
  simp only [head?_absolutePath, if_true, components_absolutePath hstack]
  rw [show ([slash] : List UInt8) = absolutePath [] by rfl, hfold,
    pathRequiresDirectory_absolutePath hstack]
  rfl

/-- A lookup that finds nothing is reported. -/
def foundNode : Option InitrdEntry → Except FacetError InitrdEntry
  | none => .error .notFound
  | some entry => .ok entry

variable (initrd : FacetInitrd)

/-- `facet_initrd_open_node`: a node is looked up under its resolved path. -/
def facetInitrdOpenNode (base path : List UInt8) (directory : Bool) :
    Except FacetError InitrdEntry :=
  match resolvePath base path with
  | .error failure => .error failure
  | .ok (resolved, requiresDirectory) =>
    foundNode (if requiresDirectory && !directory then none
      else findEntry initrd resolved directory)

/-! ## Permissions -/

/-- The permission decision: an administrator is only refused execution of what
nobody may execute; anyone else needs every requested bit in the triad that
applies. -/
def modeAllows (mode owner group uid gid : UInt32) (admin : Bool) (requested : UInt32) : Bool :=
  if admin ∨ uid = 0 then
    !(requested &&& 1 != 0 && mode &&& 0o111 == 0)
  else
    let granted :=
      if uid = owner then (mode >>> 6) &&& 7
      else if gid = group then (mode >>> 3) &&& 7
      else mode &&& 7
    granted &&& requested == requested

def entryAllows (entry : InitrdEntry) (uid gid : UInt32) (admin : Bool)
    (requested : UInt32) : Bool :=
  modeAllows entry.mode entry.uid entry.gid uid gid admin requested

/-- The leading parts of a path that the search loops look up: one for each
separator that ends a component after the first byte. -/
def searchPrefixes (passed : List UInt8) (inside : Bool) : List UInt8 → List (List UInt8)
  | [] => []
  | byte :: rest =>
    (if byte = slash ∧ inside then [passed] else [])
      ++ searchPrefixes (passed ++ [byte]) (byte ≠ slash) rest

/-- Every proper ancestor other than the root, in the order of the loop. -/
def ancestorPaths (path : List UInt8) : List (List UInt8) :=
  searchPrefixes (path.take 1) false (path.drop 1)

/-- A loop of checks that stops at the first failure. -/
def checkAll {α : Type} (check : α → Except FacetError Unit) : List α → Except FacetError Unit
  | [] => .ok ()
  | item :: items =>
    match check item with
    | .error failure => .error failure
    | .ok () => checkAll check items

theorem checkAll_ok {α : Type} {check : α → Except FacetError Unit} {items : List α}
    (hall : checkAll check items = .ok ()) {item : α} (hitem : item ∈ items) :
    check item = .ok () := by
  induction items with
  | nil => simp at hitem
  | cons first items ih =>
    rw [checkAll] at hall
    split at hall
    · contradiction
    · rename_i hfirst
      cases List.mem_cons.mp hitem with
      | inl heq => rw [heq, hfirst]
      | inr hmem => exact ih hall hmem

def facetInitrdFindFile (path : List UInt8) : Except FacetError (List UInt8) :=
  if path = [] ∨ facetPathMax < path.length ∨ path.head? ≠ some slash then .error .notFound
  else
    match findEntry initrd path false with
    | none => .error .notFound
    | some entry => .ok entry.data

/-- One directory on the way to an executable. -/
def checkExecuteAncestor (uid gid : UInt32) (admin : Bool)
    (ancestor : List UInt8) : Except FacetError Unit :=
  match findEntry initrd ancestor true with
  | none => .error .notFound
  | some directory =>
    if entryAllows directory uid gid admin 1 then .ok () else .error .accessDenied

/-- `facet_initrd_check_execute`: the root and every ancestor before the file. -/
def facetInitrdCheckExecute (path : List UInt8) (uid gid : UInt32)
    (admin : Bool) : Except FacetError Unit :=
  if path.head? ≠ some slash ∨ facetPathMax < path.length then .error .invalidArgument
  else
    match findEntry initrd [slash] true with
    | none => .error .accessDenied
    | some root =>
      if !entryAllows root uid gid admin 1 then .error .accessDenied
      else
        match checkAll (checkExecuteAncestor initrd uid gid admin) (ancestorPaths path) with
        | .error failure => .error failure
        | .ok () =>
          match findEntry initrd path false with
          | none => .error .notFound
          | some file =>
            if entryAllows file uid gid admin 1 then .ok () else .error .accessDenied

/-! ## Contents -/

inductive EntryType
  | file
  | directory
  deriving DecidableEq, Repr

/-- One listed name. -/
structure ListedEntry where
  name : List UInt8
  type : EntryType
  deriving DecidableEq, Repr

structure Listing where
  entries : List ListedEntry
  next : ℕ
  finished : Bool
  deriving DecidableEq, Repr

def facetInitrdNodeSize (entry : InitrdEntry) : Except FacetError ℕ :=
  if entry.directory then .error .invalidArgument else .ok entry.size

def facetInitrdNodeRead (entry : InitrdEntry) (offset maximum : ℕ) :
    Except FacetError (List UInt8) :=
  if entry.directory ∨ entry.size < offset then .error .invalidArgument
  else .ok ((entry.data.drop offset).take (min (entry.size - offset) maximum))

/-- The part of a path below a directory, if there is any. -/
def pathBelow (directory path : List UInt8) : Option (List UInt8) :=
  if directory = [slash] then
    if path.head? = some slash ∧ path.tail ≠ [] then some path.tail else none
  else
    let rest := path.drop directory.length
    if path.take directory.length = directory ∧ rest.head? = some slash ∧ rest.tail ≠ [] then
      some rest.tail
    else none

/-- The name of an immediate child of a directory. -/
def immediateChild (directory path : List UInt8) : Option (List UInt8) :=
  (pathBelow directory path).filter (fun name => slash ∉ name)

def listedChild (directory : List UInt8) (entry : InitrdEntry) : Option ListedEntry :=
  (immediateChild directory entry.path).map (fun name =>
    ⟨name, if entry.directory then .directory else .file⟩)

/-- The listing loop: skip what the cursor has passed, then take children until
the maximum is reached; a child left over means the listing is unfinished. -/
def listChildren (maximum : ℕ) : ℕ → ℕ → List ListedEntry → List ListedEntry × Bool
  | _, _, [] => ([], true)
  | skip + 1, count, _ :: rest => listChildren maximum skip count rest
  | 0, count, child :: rest =>
    if count = maximum then ([], false)
    else
      let (more, finished) := listChildren maximum 0 (count + 1) rest
      (child :: more, finished)

def facetInitrdNodeList (node : InitrdEntry) (cursor maximum : ℕ) : Except FacetError Listing :=
  if !node.directory then .error .invalidArgument
  else if initrd.entries.length < cursor then .error .invalidArgument
  else
    let (entries, finished) :=
      listChildren maximum cursor 0 (initrd.entries.filterMap (listedChild node.path))
    .ok ⟨entries, cursor + entries.length, finished⟩

end FacetOS.Initrd
