import Mathlib

/-!
# Records in lines

A file of records holds one record in a line and separates its fields by a
character.  A record is found by its first field: in a file whose records have
distinct first fields every record is found under its own, and nothing under another.
-/

namespace FacetOS.Records

variable {α : Type*}

/-! ## Lines -/

/-- The lines of a file, each with its terminator. -/
def joined (newline : α) (lines : List (List α)) : List α :=
  lines.flatMap (fun line => line ++ [newline])

@[simp]
theorem joined_nil (newline : α) : joined newline [] = [] :=
  rfl

@[simp]
theorem joined_cons (newline : α) (line : List α) (lines : List (List α)) :
    joined newline (line :: lines) = line ++ newline :: joined newline lines := by
  simp [joined]

theorem length_joined (newline : α) (lines : List (List α)) :
    (joined newline lines).length = (lines.map fun line => line.length + 1).sum := by
  simp [joined, List.length_flatMap]

variable [DecidableEq α]

/-! ## Cutting at a separator -/

/-- What stands before and behind the first separator. -/
def cut (separator : α) (input : List α) : Option (List α × List α) :=
  match input.dropWhile (fun c => c ≠ separator) with
  | [] => none
  | _ :: rest => some (input.takeWhile (fun c => c ≠ separator), rest)

variable {input left line : List α} {fuel : ℕ} {separator : α}

theorem all_ne (hinput : separator ∉ input) :
    ∀ c ∈ input, decide (c ≠ separator) = true :=
  fun _ hc => decide_eq_true (ne_of_mem_of_not_mem hc hinput)

theorem takeWhile_append_separator (hleft : separator ∉ left) (right : List α) :
    (left ++ separator :: right).takeWhile (fun c => c ≠ separator) = left := by
  rw [List.takeWhile_append_of_pos (all_ne hleft)]
  simp

theorem dropWhile_append_separator (hleft : separator ∉ left) (right : List α) :
    (left ++ separator :: right).dropWhile (fun c => c ≠ separator) = separator :: right := by
  rw [List.dropWhile_append_of_pos (all_ne hleft)]
  simp

theorem takeWhile_of_not_mem (hinput : separator ∉ input) :
    input.takeWhile (fun c => c ≠ separator) = input :=
  List.takeWhile_eq_self_iff.mpr (all_ne hinput)

theorem not_mem_takeWhile (separator : α) (input : List α) :
    separator ∉ input.takeWhile (fun c => c ≠ separator) := by
  intro hmem
  simpa using List.mem_takeWhile_imp hmem

theorem cut_append (hleft : separator ∉ left) (right : List α) :
    cut separator (left ++ separator :: right) = some (left, right) := by
  rw [cut, dropWhile_append_separator hleft, takeWhile_append_separator hleft]

theorem cut_eq_none_iff :
    cut separator input = none ↔ separator ∉ input := by
  constructor
  · intro hcut hmem
    obtain ⟨left, right, rfl, hleft⟩ := List.eq_append_cons_of_mem hmem
    rw [cut_append hleft] at hcut
    contradiction
  · intro hmem
    rw [cut, List.dropWhile_eq_nil_iff.mpr (all_ne hmem)]

theorem cut_some {right : List α} (hcut : cut separator input = some (left, right)) :
    input = left ++ separator :: right ∧ separator ∉ left := by
  have hmem : separator ∈ input := by
    by_contra hnot
    rw [cut_eq_none_iff.mpr hnot] at hcut
    contradiction
  obtain ⟨before, after, rfl, hbefore⟩ := List.eq_append_cons_of_mem hmem
  rw [cut_append hbefore, Option.some.injEq, Prod.mk.injEq] at hcut
  obtain ⟨rfl, rfl⟩ := hcut
  exact ⟨rfl, hbefore⟩

/-! ## Finding a record -/

/-- The first field of a line. -/
def key (separator : α) (line : List α) : List α :=
  line.takeWhile (fun c => c ≠ separator)

/-- The first line whose first field is `name`. -/
def findLine (newline separator : α) (name : List α) : ℕ → List α → Option (List α)
  | 0, _ => none
  | fuel + 1, text =>
    if text = [] then none
    else match cut newline text with
      | none => if key separator text = name then some text else none
      | some (line, rest) =>
        if key separator line = name then some line
        else findLine newline separator name fuel rest

variable {newline : α} {name : List α}

theorem key_append {field : List α} (hfield : separator ∉ field) (rest : List α) :
    key separator (field ++ separator :: rest) = field :=
  takeWhile_append_separator hfield rest

@[simp]
theorem findLine_nil (fuel : ℕ) : findLine newline separator name fuel [] = none := by
  cases fuel <;> rfl

theorem findLine_cut (hline : newline ∉ line) (rest : List α) :
    findLine newline separator name (fuel + 1) (line ++ newline :: rest) =
      if key separator line = name then some line
      else findLine newline separator name fuel rest := by
  rw [findLine, if_neg (by simp), cut_append hline]

theorem findLine_last (hline : newline ∉ line) (hne : line ≠ []) :
    findLine newline separator name (fuel + 1) line =
      if key separator line = name then some line else none := by
  rw [findLine, if_neg hne, cut_eq_none_iff.mpr hline]

/-- A line that is found is a line and has the name. -/
theorem findLine_some {text : List α}
    (hfind : findLine newline separator name fuel text = some line) :
    newline ∉ line ∧ key separator line = name := by
  induction fuel generalizing text with
  | zero => cases hfind
  | succ fuel ih =>
    by_cases hmem : newline ∈ text
    · obtain ⟨before, rest, rfl, hbefore⟩ := List.eq_append_cons_of_mem hmem
      rw [findLine_cut hbefore] at hfind
      split at hfind
      · rename_i hkey
        obtain rfl := Option.some.inj hfind
        exact ⟨hbefore, hkey⟩
      · exact ih hfind
    · have hne : text ≠ [] := by
        rintro rfl
        simp at hfind
      rw [findLine_last hmem hne] at hfind
      split at hfind
      · rename_i hkey
        obtain rfl := Option.some.inj hfind
        exact ⟨hmem, hkey⟩
      · cases hfind

/-- The search goes over the lines of the file. -/
theorem findLine_joined {lines : List (List α)} (hlines : ∀ line ∈ lines, newline ∉ line)
    (hfuel : (joined newline lines).length ≤ fuel) :
    findLine newline separator name fuel (joined newline lines) =
      lines.find? (fun line => key separator line = name) := by
  induction lines generalizing fuel with
  | nil => simp
  | cons line lines ih =>
    rw [List.forall_mem_cons] at hlines
    rw [joined_cons, List.length_append, List.length_cons] at hfuel
    obtain ⟨fuel, rfl⟩ : ∃ rounds, fuel = rounds + 1 := ⟨fuel - 1, by omega⟩
    rw [joined_cons, findLine_cut hlines.1, ih hlines.2 (by omega), List.find?_cons]
    by_cases hkey : key separator line = name <;> simp [hkey]

/-! ## Printed records

A file prints one line for each record, with the record's title as first field;
the titles are distinct.
-/

section

variable {β : Type*} {body title : β → List α} {records : List β}
variable (hlines : ∀ record ∈ records, newline ∉ body record)
variable (hkey : ∀ record ∈ records, key separator (body record) = title record)

include hlines hkey

/-- The search by title goes over the records. -/
theorem findLine_records (name : List α) :
    findLine newline separator name (joined newline (records.map body)).length
        (joined newline (records.map body)) =
      (records.find? fun record => title record = name).map body := by
  rw [findLine_joined (List.forall_mem_map.mpr hlines) le_rfl, List.find?_map]
  congr 1
  refine List.find?_congr fun record hrecord => ?_
  simp [hkey record hrecord]

theorem findLine_record {record : β} (htitles : (records.map title).Nodup)
    (hrecord : record ∈ records) :
    findLine newline separator (title record) (joined newline (records.map body)).length
      (joined newline (records.map body)) = some (body record) := by
  rw [findLine_records hlines hkey]
  cases hfind : records.find? fun other => title other = title record with
  | none => simpa using List.find?_eq_none.mp hfind record hrecord
  | some other =>
    have htitle : title other = title record := by simpa using List.find?_some hfind
    rw [List.inj_on_of_nodup_map htitles (List.mem_of_find?_eq_some hfind) hrecord htitle]
    rfl

theorem findLine_unknown (hname : ∀ record ∈ records, title record ≠ name) :
    findLine newline separator name (joined newline (records.map body)).length
      (joined newline (records.map body)) = none := by
  rw [findLine_records hlines hkey, Option.map_eq_none_iff, List.find?_eq_none]
  simpa using hname

end

end FacetOS.Records
