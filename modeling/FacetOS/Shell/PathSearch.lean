import FacetOS.Core.Checked
import FacetOS.Core.Records
import FacetOS.Core.Text

/-!
# The candidates of a PATH search

`facet_shell_path_candidate` takes one field of the PATH value and joins it with the
command.  The offset that it leaves behind stands on the next field, or is `SIZE_MAX`
behind the last one.
-/

namespace FacetOS.Shell

open Checked Records

def sizeMax : ℕ := 2 ^ 64 - 1

def colon : UInt8 := 58

def slash : UInt8 := 47

/-- The allocation and the writes of `facet_shell_path_candidate`.  A buffer that was just
allocated holds zeros here; no byte of it is read before it is written. -/
def joinCandidate (directory command : List UInt8) : Except Fault (List UInt8) := do
  let needed := (directory.length + 1 + command.length + 1) % 2 ^ 64
  let candidate ← storeBlock (List.replicate needed 0) 0 directory
  let last ← load candidate (directory.length - 1)
  if last = slash then storeBlock candidate directory.length (command ++ [0])
  else do
    let candidate ← store candidate directory.length slash
    storeBlock candidate (directory.length + 1) (command ++ [0])

/-- `facet_shell_path_candidate`: the candidate and the next offset. -/
def facetShellPathCandidate (path : List UInt8) (offset : ℕ) (command : List UInt8) :
    Except Fault (Option (List UInt8 × ℕ)) :=
  if offset = sizeMax then .ok none
  else if path.length < offset then .error (.outOfBounds offset)
  else do
    let cursor := path.drop offset
    let stop := (cut colon cursor).map fun parts => parts.1.length
    let found := stop.getD cursor.length
    let directory := if found = 0 then ascii "." else cursor.take found
    let candidate ← joinCandidate directory command
    return some (candidate, (stop.map (offset + · + 1)).getD sizeMax)

/-- The candidates, as strings, that calls from `offset` on return until the first NULL. -/
def pathCandidates (path command : List UInt8) : ℕ → ℕ → Except Fault (List (List UInt8))
  | 0, _ => .error .exhausted
  | fuel + 1, offset => do
    match ← facetShellPathCandidate path offset command with
    | none => return []
    | some (candidate, next) =>
      let rest ← pathCandidates path command fuel next
      return cString candidate :: rest

/-- A field of PATH joined with the command; the empty field stands for `.`. -/
def searchCandidate (field command : List UInt8) : List UInt8 :=
  let directory := if field = [] then ascii "." else field
  directory ++ (if directory.getLast? = some slash then [] else [slash]) ++ command

variable {path command field : List UInt8} {offset : ℕ}

/-- A string that is copied behind a text. -/
theorem cString_storeBlock {buffer text : List UInt8} (htext : buffer.take text.length = text)
    (hzero : 0 ∉ text ++ command) (hfits : text.length + command.length < buffer.length) :
    ∃ candidate, storeBlock buffer text.length (command ++ [0]) = .ok candidate ∧
      cString candidate = text ++ command := by
  obtain ⟨candidate, hstore, -, htake⟩ :=
    @storeBlock_eq_ok _ buffer (command ++ [0]) text.length (by simp; omega)
  refine ⟨candidate, hstore, ?_⟩
  rw [← List.take_append_drop (text.length + (command ++ [0]).length) candidate, htake, htext,
    List.append_assoc, List.append_assoc, ← List.append_assoc, List.singleton_append,
    cString_append_zero hzero]

/-- Joining stays inside the buffer. -/
theorem joinCandidate_eq {directory : List UInt8} (hdirectory : directory ≠ [])
    (hzero : 0 ∉ directory) (hcommand : 0 ∉ command)
    (hfits : directory.length + command.length + 2 < 2 ^ 64) :
    ∃ candidate, joinCandidate directory command = .ok candidate ∧
      cString candidate = directory ++
        (if directory.getLast? = some slash then [] else [slash]) ++ command := by
  have hneeded : (directory.length + 1 + command.length + 1) % 2 ^ 64 =
      directory.length + 1 + command.length + 1 := Nat.mod_eq_of_lt (by omega)
  obtain ⟨buffer, hstore, hlength, htake⟩ := @storeBlock_eq_ok _
    (List.replicate (directory.length + 1 + command.length + 1) (0 : UInt8)) directory 0
    (by simp; omega)
  rw [List.length_replicate] at hlength
  simp only [Nat.zero_add, List.take_zero, List.nil_append] at htake
  have hpositive := List.length_pos_iff.mpr hdirectory
  have hlast : buffer[directory.length - 1]? = directory.getLast? := by
    rw [List.getLast?_eq_getElem?, ← htake, List.getElem?_take_of_lt (by simp; omega)]
  obtain ⟨last, hend⟩ : ∃ last, directory.getLast? = some last :=
    ⟨_, List.getLast?_eq_some_getLast hdirectory⟩
  unfold joinCandidate
  simp only [hneeded, hstore, ok_bind, load_eq_ok (hlast.trans hend), hend, Option.some.injEq]
  split
  · obtain ⟨candidate, hcandidate, htext⟩ := @cString_storeBlock command buffer directory htake
      (by simp [hzero, hcommand]) (by omega)
    exact ⟨candidate, hcandidate, by simpa using htext⟩
  · have hbounds : directory.length < buffer.length := by omega
    rw [store_eq_ok hbounds, ok_bind]
    obtain ⟨candidate, hcandidate, htext⟩ := @cString_storeBlock command
      (buffer.set directory.length slash) (directory ++ [slash])
      (by rw [List.length_append, List.length_singleton, take_set_self hbounds, htake])
      (by simp [hzero, hcommand]; decide) (by simp; omega)
    rw [List.length_append, List.length_singleton] at hcandidate
    exact ⟨candidate, hcandidate, htext⟩

/-- A call takes the field at the offset. -/
theorem facetShellPathCandidate_eq (hpath : 0 ∉ path) (hcommand : 0 ∉ command)
    (hfits : path.length + command.length + 3 < 2 ^ 64) (hoffset : offset ≤ path.length)
    {rest : List UInt8} (hfield : path.drop offset = field ++ rest)
    (hstop : ((cut colon (path.drop offset)).map fun parts => parts.1.length).getD
      (path.drop offset).length = field.length) :
    ∃ candidate, facetShellPathCandidate path offset command =
        .ok (some (candidate, ((cut colon (path.drop offset)).map
          (offset + ·.1.length + 1)).getD sizeMax)) ∧
      cString candidate = searchCandidate field command := by
  have hlength : field.length ≤ path.length := by
    have htotal := congrArg List.length hfield
    rw [List.length_drop, List.length_append] at htotal
    omega
  have hzero : 0 ∉ field := fun hmem =>
    hpath (List.mem_of_mem_drop (hfield ▸ List.mem_append_left rest hmem))
  have hdirectory : (if field.length = 0 then ascii "." else (path.drop offset).take field.length) =
      if field = [] then ascii "." else field := by
    rw [hfield, List.take_left' rfl]
    simp
  obtain ⟨candidate, hjoin, htext⟩ := @joinCandidate_eq command
    (if field = [] then ascii "." else field) (by split <;> simp_all [ascii])
    (by split <;> [decide; exact hzero]) hcommand
    (by split <;> [(simp [ascii]; omega); omega])
  refine ⟨candidate, ?_, htext⟩
  unfold facetShellPathCandidate
  rw [if_neg (by unfold sizeMax; omega), if_neg (by omega)]
  simp only [hstop, hdirectory, hjoin, ok_bind, Option.map_map]
  rfl

/-- From an offset inside the value on, the calls take the fields that are left. -/
theorem pathCandidates_drop (hpath : 0 ∉ path) (hcommand : 0 ∉ command)
    (hfits : path.length + command.length + 3 < 2 ^ 64) {fuel : ℕ} (hoffset : offset ≤ path.length)
    (hfuel : path.length - offset + 1 < fuel) :
    pathCandidates path command fuel offset =
      .ok (((path.drop offset).splitOn colon).map (searchCandidate · command)) := by
  induction fuel generalizing offset with
  | zero => omega
  | succ fuel ih =>
    cases hcut : cut colon (path.drop offset) with
    | none =>
      have hsingle := List.splitOn_eq_singleton (cut_eq_none_iff.mp hcut)
      obtain ⟨candidate, hcall, htext⟩ := facetShellPathCandidate_eq hpath hcommand hfits hoffset
        (List.append_nil _).symm (by rw [hcut]; rfl)
      obtain ⟨fuel, rfl⟩ : ∃ less, fuel = less + 1 := ⟨fuel - 1, by omega⟩
      rw [hcut] at hcall
      rw [pathCandidates, hcall, hsingle, List.map_singleton, ← htext]
      simp [pathCandidates, facetShellPathCandidate, pure, Except.pure]
    | some parts =>
      obtain ⟨field, rest⟩ := parts
      obtain ⟨hparts, hfield⟩ := cut_some hcut
      obtain ⟨candidate, hcall, htext⟩ := facetShellPathCandidate_eq hpath hcommand hfits hoffset
        hparts (by rw [hcut]; rfl)
      have hrest : path.drop (offset + field.length + 1) = rest := by
        rw [Nat.add_assoc, ← List.drop_drop, hparts]
        simp
      have hlength : offset + field.length + 1 ≤ path.length := by
        have htotal := congrArg List.length hparts
        rw [List.length_drop, List.length_append, List.length_cons] at htotal
        omega
      rw [hcut] at hcall
      rw [pathCandidates, hcall, hparts, List.splitOn_append_cons_self,
        List.splitOn_eq_singleton hfield, List.singleton_append, List.map_cons, ← htext]
      have hlater := ih hlength (by omega)
      rw [hrest] at hlater
      simp [hlater, pure, Except.pure]

/-- Calls from offset 0 on give one candidate for each field of PATH, in order, and then
NULL. -/
theorem pathCandidates_eq (hpath : 0 ∉ path) (hcommand : 0 ∉ command)
    (hfits : path.length + command.length + 3 < 2 ^ 64) {fuel : ℕ}
    (hfuel : path.length + 1 < fuel) :
    pathCandidates path command fuel 0 =
      .ok ((path.splitOn colon).map (searchCandidate · command)) :=
  pathCandidates_drop hpath hcommand hfits (Nat.zero_le _) (by simpa using hfuel)

theorem pathCandidates_bin :
    pathCandidates (ascii ":/bin/:/usr:") (ascii "ls") 20 0 =
      .ok [ascii "./ls", ascii "/bin/ls", ascii "/usr/ls", ascii "./ls"] :=
  pathCandidates_eq (by decide) (by decide) (by decide) (by decide)

end FacetOS.Shell
