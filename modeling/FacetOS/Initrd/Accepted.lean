import FacetOS.Initrd.Reader

/-!
# What the reader accepts

Every entry of an accepted archive other than the synthesised root comes from a
record: its path is the canonical form of a name, and its size is a field of eight
digits.
-/

namespace FacetOS.Initrd

open Paths

/-! ## Header fields are short -/

theorem foldlM_hexStep_lt {text : List UInt8} {start value : ℕ}
    (hvalue : text.foldlM hexStep start = some value) :
    value < (start + 1) * 16 ^ text.length := by
  induction text generalizing start with
  | nil =>
    cases hvalue
    simp
  | cons byte rest ih =>
    rw [List.foldlM_cons, Option.bind_eq_bind, Option.bind_eq_some_iff] at hvalue
    obtain ⟨next, hstep, hrest⟩ := hvalue
    have hnext : next + 1 ≤ (start + 1) * 16 := by
      rw [hexStep, Option.bind_eq_bind, Option.bind_eq_some_iff] at hstep
      obtain ⟨digit, hdigit, hresult⟩ := hstep
      have hle := hexDigit_le hdigit
      split at hresult
      · contradiction
      · cases hresult
        omega
    calc value < (next + 1) * 16 ^ rest.length := ih hrest
      _ ≤ (start + 1) * 16 * 16 ^ rest.length := Nat.mul_le_mul_right _ hnext
      _ = (start + 1) * 16 ^ (byte :: rest).length := by
        rw [List.length_cons, pow_succ]
        ring

theorem headerField_lt {header : List UInt8} {position value : ℕ}
    (hvalue : headerField header position = some value) : value < 2 ^ 32 := by
  have hfield : ((header.drop position).take 8).foldlM hexStep 0 = some value := hvalue
  have hlt := foldlM_hexStep_lt hfield
  have hlength : ((header.drop position).take 8).length ≤ 8 := List.length_take_le _ _
  calc value < (0 + 1) * 16 ^ ((header.drop position).take 8).length := hlt
    _ ≤ (0 + 1) * 16 ^ 8 := by gcongr; omega
    _ = 2 ^ 32 := by norm_num

/-! ## Entries come from records -/

/-- What a record leaves in the table. -/
structure Recorded (entry : InitrdEntry) : Prop where
  named : ∃ name, canonicalPath name = some entry.path
  short : entry.size < 2 ^ 32

theorem addRecord_eq_some {initrd grown : FacetInitrd} {name data : List UInt8}
    {header : NewcHeader} (hadd : addRecord initrd name data header = some grown) :
    ∃ entry, grown.entries = initrd.entries ++ [entry] ∧
      canonicalPath name = some entry.path ∧ entry.data = data := by
  have hentries := entries_addRecord initrd name data header
  rw [hadd, Option.map_some] at hentries
  split at hentries
  · cases hentries
  · split at hentries
    · cases hentries
    · obtain ⟨path, hpath, hgrown⟩ := Option.bind_eq_some_iff.mp hentries.symm
      split at hgrown
      · cases hgrown
      · exact ⟨_, (Option.some.inj hgrown).symm, hpath, rfl⟩

theorem sizes_lt {header : List UInt8} {fields : NewcHeader}
    (hheader : readHeader header = some fields) :
    fields.fileSize < 2 ^ 32 ∧ fields.nameSize < 2 ^ 32 := by
  simp only [readHeader, Option.bind_eq_bind, Option.bind_eq_some_iff] at hheader
  obtain ⟨-, -, mode, -, uid, -, gid, -, fileSize, hsize, nameSize, hname, -, -, hfields⟩ := hheader
  cases hfields
  exact ⟨headerField_lt hsize, headerField_lt hname⟩

theorem readRecord_entry_short {image name data : List UInt8} {offset next : ℕ}
    {header : NewcHeader}
    (hrecord : readRecord image offset = some (.entry name data header next)) :
    data.length < 2 ^ 32 := by
  simp only [readRecord, Option.bind_eq_bind, Option.bind_eq_some_iff] at hrecord
  obtain ⟨fields, hheader, -, -, -, -, -, -, hrecord⟩ := hrecord
  split at hrecord
  · cases hrecord
  · split at hrecord
    · cases hrecord
    · cases hrecord
      exact (List.length_take_le _ _).trans_lt (sizes_lt hheader).1

theorem readRecords_recorded {image : List UInt8} {fuel offset : ℕ} {initrd result : FacetInitrd}
    (hbefore : ∀ entry ∈ initrd.entries, entry = rootEntry ∨ Recorded entry)
    (hread : readRecords image fuel offset initrd = some result) :
    ∀ entry ∈ result.entries, entry = rootEntry ∨ Recorded entry := by
  induction fuel generalizing offset initrd with
  | zero => cases hread
  | succ fuel ih =>
    rw [readRecords_succ] at hread
    split at hread
    · cases hread
      exact hbefore
    split at hread
    · cases hread
    · cases hread
      exact hbefore
    · exact ih hbefore hread
    rename_i name data header next hrecord
    obtain ⟨grown, hadd, hrest⟩ := Option.bind_eq_some_iff.mp hread
    obtain ⟨added, hgrown, hpath, hdata⟩ := addRecord_eq_some hadd
    apply ih _ hrest
    intro entry hentry
    rw [hgrown, List.mem_append, List.mem_singleton] at hentry
    cases hentry with
    | inl hold => exact hbefore entry hold
    | inr hnew =>
      subst hnew
      refine .inr ⟨⟨name, hpath⟩, ?_⟩
      rw [InitrdEntry.size, hdata]
      exact readRecord_entry_short hrecord

section

variable {initrd : FacetInitrd} {image : List UInt8}
  (hcreate : facetInitrdCreate image = some initrd)
include hcreate

/-- Each entry of an accepted archive is the synthesised root or comes from a record. -/
theorem recorded_of_create {entry : InitrdEntry}
    (hentry : entry ∈ initrd.entries) : entry = rootEntry ∨ Recorded entry := by
  rw [facetInitrdCreate] at hcreate
  split at hcreate
  · cases hcreate
  · refine readRecords_recorded ?_ hcreate entry hentry
    intro root hroot
    exact .inl (List.mem_singleton.mp hroot)

/-- No file of an accepted archive reaches four gigabytes. -/
theorem size_lt_of_create {entry : InitrdEntry}
    (hentry : entry ∈ initrd.entries) : entry.size < 2 ^ 32 := by
  cases recorded_of_create hcreate hentry with
  | inl hroot =>
    rw [hroot]
    decide
  | inr hrecorded => exact hrecorded.short

end

/-! ## Canonical names -/

/-- No part of an accepted name that does not end in a separator is empty. -/
theorem parts_of_nameRejected {parts : List (List UInt8)}
    (hname : nameRejected true ([slash].intercalate parts) = false)
    (hhead : ([slash].intercalate parts).head? ≠ some slash)
    (hlast : ([slash].intercalate parts).getLast? ≠ some slash)
    (hempty : [slash].intercalate parts ≠ []) : [] ∉ parts := by
  induction parts with
  | nil => exact List.not_mem_nil
  | cons first rest ih =>
    cases rest with
    | nil =>
      rw [List.intercalate_singleton] at hempty
      rw [List.mem_singleton]
      exact hempty.symm
    | cons second rest =>
      rw [List.intercalate_cons_cons, List.append_assoc, List.singleton_append]
        at hname hhead hlast
      obtain ⟨htail, hseparator⟩ := nameRejected_after hname
      have hnonempty : [slash].intercalate (second :: rest) ≠ [] := by
        intro heq
        rw [heq] at hlast
        simp at hlast
      have hend : ([slash].intercalate (second :: rest)).getLast? ≠ some slash := by
        rwa [List.append_cons, List.getLast?_append_of_ne_nil _ hnonempty] at hlast
      rw [List.mem_cons, not_or]
      refine ⟨?_, ih htail hseparator hend hnonempty⟩
      rintro rfl
      simp at hhead

end FacetOS.Initrd
