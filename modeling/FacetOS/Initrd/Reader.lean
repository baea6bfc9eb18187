import FacetOS.Initrd.Archive
import FacetOS.Core.Checked

/-!
# The archive reader on memory

The loop of `facet_initrd_create` at the level of single loads and `size_t`
additions, with a fault for everything C leaves undefined or silently wraps.
The image is an object in memory, so it is no larger than `PTRDIFF_MAX`; apart
from that it is arbitrary.  The reader is shown never to fault, and its table to
be the one of the list model.
-/

namespace FacetOS.Initrd

open Paths Checked

/-- The values of `size_t` lie below this bound. -/
def sizeBound : ℕ := 2 ^ 64

def ptrdiffMax : ℕ := 2 ^ 63 - 1

/-- The bytes handed to the reader: any object that memory can hold. -/
structure BootImage where
  bytes : List UInt8
  object : bytes.length ≤ ptrdiffMax

/-- An entry as the reader stores it: the data is a range of the image. -/
structure ReaderEntry where
  path : List UInt8
  dataOffset : ℕ
  size : ℕ
  directory : Bool
  mode : UInt32
  uid : UInt32
  gid : UInt32
  deriving DecidableEq

variable (image : List UInt8)

/-- The bytes that a stored range stands for. -/
def ReaderEntry.view (entry : ReaderEntry) : InitrdEntry where
  path := entry.path
  data := (image.drop entry.dataOffset).take entry.size
  directory := entry.directory
  mode := entry.mode
  uid := entry.uid
  gid := entry.gid

def rootReaderEntry : ReaderEntry := ⟨[slash], 0, 0, true, 0o040755, 0, 0⟩

/-! ## Fields and comparisons -/

def alignUp (value : ℕ) : Except Fault ℕ :=
  (add sizeBound value 3).map (fun raised => raised / 4 * 4)

/-- `hex_field`, from a position on. -/
def hexLoop : ℕ → ℕ → ℕ → Except Fault (Option ℕ)
  | _, 0, value => .ok (some value)
  | position, count + 1, value => do
      let byte ← load image position
      match hexDigit byte with
      | none => .ok none
      | some digit =>
        if (sizeMax - digit) / 16 < value then .ok none
        else do
          let scaled ← mul sizeBound value 16
          let value ← add sizeBound scaled digit
          hexLoop (position + 1) count value

/-- `strcmp` with a literal: it stops at the first difference. -/
def equalsLiteral : ℕ → List UInt8 → Except Fault Bool
  | position, [] => (load image position).map (fun byte => byte == 0)
  | position, expected :: literal => do
      let byte ← load image position
      if byte = expected then equalsLiteral (position + 1) literal else .ok false

def headerAt (offset : ℕ) : Except Fault (Option NewcHeader) := do
  let magic ← loadBlock image offset 6
  if magic ≠ ascii "070701" ∧ magic ≠ ascii "070702" then .ok none
  else
    let some mode ← hexLoop image (offset + 14) 8 0 | .ok none
    let some uid ← hexLoop image (offset + 22) 8 0 | .ok none
    let some gid ← hexLoop image (offset + 30) 8 0 | .ok none
    let some fileSize ← hexLoop image (offset + 54) 8 0 | .ok none
    let some nameSize ← hexLoop image (offset + 94) 8 0 | .ok none
    if nameSize = 0 then .ok none
    else .ok (some ⟨mode, uid, gid, fileSize, nameSize⟩)

/-! ## Names -/

/-- The first loop of `canonical_path`. -/
def skipCurrent : ℕ → ℕ → Except Fault (ℕ × ℕ)
  | position, length + 2 => do
      let first ← load image position
      if first ≠ dot then .ok (position, length + 2)
      else
        let second ← load image (position + 1)
        if second ≠ slash then .ok (position, length + 2)
        else skipCurrent (position + 2) length
  | position, length => .ok (position, length)

/-- The second loop of `canonical_path`. -/
def skipSeparators : ℕ → ℕ → Except Fault (ℕ × ℕ)
  | position, 0 => .ok (position, 0)
  | position, length + 1 => do
      let byte ← load image position
      if byte = slash then skipSeparators (position + 1) length
      else .ok (position, length + 1)

/-- The test of the third loop for one index: two separators in a row. -/
def doubleSeparator (base length index : ℕ) : Except Fault Bool :=
  if index + 1 < length then (load image (base + index + 1)).map (fun byte => byte == slash)
  else .ok false

/-- The index is the first of the name or follows a separator. -/
def afterSeparator (base index : ℕ) : Except Fault Bool :=
  if index = 0 then .ok true
  else (load image (base + index - 1)).map (fun byte => byte == slash)

/-- The test of the third loop for one index that holds a dot: the first dot of
a component `..`. -/
def parentComponent (base length index : ℕ) : Except Fault Bool :=
  if index + 1 < length then do
    let second ← load image (base + index + 1)
    if second ≠ dot then .ok false
    else
      let atStart ← afterSeparator image base index
      if atStart = false then .ok false
      else if index + 2 = length then .ok true
      else (load image (base + index + 2)).map (fun byte => byte == slash)
  else .ok false

/-- The condition of the third loop on the byte at one index. -/
def rejectedAt (base length index : ℕ) (byte : UInt8) : Except Fault Bool :=
  if byte = 0 then .ok true
  else if byte = slash then doubleSeparator image base length index
  else if byte = dot then parentComponent image base length index
  else .ok false

/-- The third loop of `canonical_path`: is the name rejected? -/
def rejectLoop (base length : ℕ) : ℕ → ℕ → Except Fault Bool
  | _, 0 => .ok false
  | index, remaining + 1 => do
      let byte ← load image (base + index)
      let rejected ← rejectedAt image base length index byte
      if rejected then .ok true else rejectLoop base length (index + 1) remaining

/-- The whole name is one dot. -/
def singleDot (position length : ℕ) : Except Fault Bool :=
  if length = 1 then (load image position).map (fun byte => byte == dot) else .ok false

/-- `canonical_path` on the bytes from a position on. -/
def pathAt (position length : ℕ) : Except Fault (Option (List UInt8)) := do
  let (position, length) ← skipCurrent image position length
  let (position, length) ← skipSeparators image position length
  if length = 0 then .ok none
  else
    let single ← singleDot image position length
    if single then .ok none
    else
      let rejected ← rejectLoop image position length 0 length
      if rejected then .ok none
      else (loadBlock image position length).map (fun name => some (slash :: name))

/-! ## Records -/

/-- A record whose name and data lie inside the image. -/
structure Placed where
  header : NewcHeader
  nameOffset : ℕ
  dataOffset : ℕ

def placedAt (offset : ℕ) : Except Fault (Option Placed) := do
  let some header ← headerAt image offset | .ok none
  let nameOffset ← add sizeBound offset cpioHeaderSize
  if image.length < nameOffset ∨ image.length - nameOffset < header.nameSize then .ok none
  else
    let last ← load image (nameOffset + (header.nameSize - 1))
    if last ≠ 0 then .ok none
    else
      let nameEnd ← add sizeBound nameOffset header.nameSize
      let dataOffset ← alignUp nameEnd
      if image.length < dataOffset ∨ image.length - dataOffset < header.fileSize then .ok none
      else .ok (some ⟨header, nameOffset, dataOffset⟩)

def nextOffset (placed : Placed) : Except Fault ℕ := do
  let dataEnd ← add sizeBound placed.dataOffset placed.header.fileSize
  alignUp dataEnd

/-- The checks and the table update for one file or directory record. -/
def storeEntry (table : List ReaderEntry) (placed : Placed) :
    Except Fault (Option (List ReaderEntry)) := do
  let kind := placed.header.mode &&& fileTypeMask
  if kind ≠ regularFile ∧ kind ≠ directoryFile then .ok none
  else if table.length = cpioMaxEntries then .ok none
  else
    let some path ← pathAt image placed.nameOffset (placed.header.nameSize - 1) | .ok none
    if path ∈ table.map ReaderEntry.path then .ok none
    else .ok (some (table ++
      [{ path := path
         dataOffset := placed.dataOffset
         size := placed.header.fileSize
         directory := kind = directoryFile
         mode := UInt32.ofNat placed.header.mode
         uid := UInt32.ofNat placed.header.uid
         gid := UInt32.ofNat placed.header.gid }]))

/-- The record loop, with a bound on its rounds. -/
def readLoop : ℕ → ℕ → List ReaderEntry → Except Fault (Option (List ReaderEntry))
  | 0, _, _ => .error .exhausted
  | fuel + 1, offset, table => do
      let headerEnd ← add sizeBound offset cpioHeaderSize
      if image.length < headerEnd then .ok (some table)
      else
        let some placed ← placedAt image offset | .ok none
        if ← equalsLiteral image placed.nameOffset (ascii "TRAILER!!!") then .ok (some table)
        else if ← equalsLiteral image placed.nameOffset (ascii ".") then
          let next ← nextOffset placed
          readLoop fuel next table
        else
          let some table ← storeEntry image table placed | .ok none
          let next ← nextOffset placed
          readLoop fuel next table

/-- `facet_initrd_create`: an error is a fault, no table is the result `NULL`. -/
def readImage (image : BootImage) : Except Fault (Option (List ReaderEntry)) :=
  if image.bytes.length < cpioHeaderSize then .ok none
  else readLoop image.bytes (image.bytes.length + 1) 0 [rootReaderEntry]

/-! ## Each part computes what the list model says -/

theorem alignUp_eq_ok {value : ℕ} (hvalue : value + 3 < sizeBound) :
    alignUp value = .ok (align4 value) := by
  rw [alignUp, add_eq_ok hvalue]
  rfl

variable {record : Placed} {table : List ReaderEntry} {byte : UInt8} {name : List UInt8}
  {initrd : FacetInitrd} {image : List UInt8} {position base length index offset : ℕ}

theorem hexDigit_le {digit : ℕ} (hdigit : hexDigit byte = some digit) :
    digit ≤ 15 := by
  have hupper {last : UInt8} (hrange : byte ≤ last) : byte.toNat ≤ last.toNat :=
    UInt8.le_iff_toNat_le.mp hrange
  unfold hexDigit at hdigit
  split_ifs at hdigit with hdecimal hlower hcapital
  · have hlast : byte.toNat ≤ 57 := hupper hdecimal.2
    cases hdigit
    omega
  · have hlast : byte.toNat ≤ 102 := hupper hlower.2
    cases hdigit
    omega
  · have hlast : byte.toNat ≤ 70 := hupper hcapital.2
    cases hdigit
    omega

/-- One digit of a field. -/
def hexStep (value : ℕ) (byte : UInt8) : Option ℕ := do
  let digit ← hexDigit byte
  if (sizeMax - digit) / 16 < value then none else some (value * 16 + digit)

theorem hexLoop_eq_ok {count : ℕ} (hbounds : position + count ≤ image.length) (value : ℕ) :
    hexLoop image position count value
      = .ok (((image.drop position).take count).foldlM hexStep value) := by
  induction count generalizing position value with
  | zero => simp [hexLoop]
  | succ count ih =>
    have hlt : position < image.length := by omega
    have hload := load_eq_ok (List.getElem?_eq_getElem hlt)
    rw [hexLoop, hload, ok_bind, List.drop_eq_getElem_cons hlt, List.take_succ_cons,
      List.foldlM_cons, hexStep]
    cases hdigit : hexDigit image[position] with
    | none => rfl
    | some digit =>
      have hle := hexDigit_le hdigit
      dsimp only [Option.bind_eq_bind, Option.bind_some]
      by_cases hlarge : (sizeMax - digit) / 16 < value
      · rw [if_pos hlarge, if_pos hlarge]
        rfl
      have hfits : value * 16 + digit < sizeBound := by
        unfold sizeMax at hlarge
        unfold sizeBound
        omega
      rw [if_neg hlarge, if_neg hlarge, mul_eq_ok (by omega), ok_bind, add_eq_ok hfits,
        ok_bind, ih (by omega)]
      rfl

theorem headerAt_eq_ok (hbounds : offset + cpioHeaderSize ≤ image.length) :
    headerAt image offset = .ok (readHeader (image.drop offset)) := by
  have hsize : cpioHeaderSize = 110 := rfl
  have hfield : ∀ position, position + 8 ≤ 110 →
      hexLoop image (offset + position) 8 0 = .ok (headerField (image.drop offset) position) := by
    intro position hposition
    rw [hexLoop_eq_ok (by omega), headerField, hexField, List.drop_drop]
    rfl
  rw [headerAt, loadBlock_eq_ok (by omega), hfield 14 (by omega), hfield 22 (by omega),
    hfield 30 (by omega), hfield 54 (by omega), hfield 94 (by omega), readHeader]
  simp only [ok_bind]
  by_cases hmagic : (image.drop offset).take 6 = ascii "070701"
      ∨ (image.drop offset).take 6 = ascii "070702"
  · rw [if_neg (by tauto), guard, if_pos hmagic]
    obtain _ | mode := headerField (image.drop offset) 14
    · rfl
    obtain _ | uid := headerField (image.drop offset) 22
    · rfl
    obtain _ | gid := headerField (image.drop offset) 30
    · rfl
    obtain _ | fileSize := headerField (image.drop offset) 54
    · rfl
    obtain _ | nameSize := headerField (image.drop offset) 94
    · rfl
    by_cases hempty : nameSize = 0 <;> simp [hempty, guard]
  · rw [if_pos (by tauto), guard, if_neg hmagic]
    rfl

/-- A terminated name is compared up to its terminator only. -/
theorem equalsLiteral_eq_ok {rest literal : List UInt8}
    (hname : image.drop position = name ++ rest) (hterminated : 0 ∈ name) (hliteral : 0 ∉ literal) :
    equalsLiteral image position literal = .ok (decide (cString name = literal)) := by
  induction literal generalizing position name with
  | nil =>
    cases name with
    | nil => simp at hterminated
    | cons byte name =>
      have hload : image[position]? = some byte := by
        rw [← List.head?_drop, hname]
        rfl
      rw [equalsLiteral, load_eq_ok hload]
      by_cases hzero : byte = 0 <;> simp [hzero, cString, Except.map]
  | cons expected literal ih =>
    cases name with
    | nil => simp at hterminated
    | cons byte name =>
      simp only [List.mem_cons, not_or] at hliteral
      have hload : image[position]? = some byte := by
        rw [← List.head?_drop, hname]
        rfl
      rw [equalsLiteral, load_eq_ok hload, ok_bind]
      by_cases hbyte : byte = expected
      · have hzero : byte ≠ 0 := hbyte ▸ Ne.symm hliteral.1
        have htail : image.drop (position + 1) = name ++ rest := by
          rw [← List.tail_drop, hname]
          rfl
        have hmem : 0 ∈ name := by
          cases List.mem_cons.mp hterminated with
          | inl heq => exact absurd heq.symm hzero
          | inr hlater => exact hlater
        rw [if_pos hbyte, ih htail hmem hliteral.2]
        simp [cString, hbyte ▸ hzero, hbyte]
      · rw [if_neg hbyte]
        by_cases hzero : byte = 0
        · simp [cString, hzero]
        · simp [cString, hzero, hbyte]

/-! ## Names -/

/-- The bytes of a name that lies in the image. -/
def nameBytes (image : List UInt8) (place : ℕ × ℕ) : List UInt8 :=
  (image.drop place.1).take place.2

theorem nameBytes_succ (hbounds : position + (length + 1) ≤ image.length) :
    ∃ byte, image[position]? = some byte
      ∧ nameBytes image (position, length + 1)
        = byte :: nameBytes image (position + 1, length) := by
  have hlt : position < image.length := by omega
  refine ⟨image[position], List.getElem?_eq_getElem hlt, ?_⟩
  rw [nameBytes, nameBytes, List.drop_eq_getElem_cons hlt, List.take_succ_cons]

theorem length_nameBytes {place : ℕ × ℕ}
    (hbounds : place.1 + place.2 ≤ image.length) : (nameBytes image place).length = place.2 := by
  rw [nameBytes, List.length_take, List.length_drop]
  omega

theorem skipCurrent_eq_ok (hbounds : position + length ≤ image.length) :
    ∃ place, skipCurrent image position length = .ok place
      ∧ place.1 + place.2 ≤ image.length
      ∧ nameBytes image place = dropCurrent (nameBytes image (position, length)) := by
  fun_induction skipCurrent image position length with
  | case1 position length ih =>
    obtain ⟨first, hfirst, hname⟩ := nameBytes_succ hbounds
    obtain ⟨second, hsecond, hrest⟩ := @nameBytes_succ image (position + 1) length (by omega)
    rw [load_eq_ok hfirst, ok_bind, load_eq_ok hsecond, hname, hrest, dropCurrent]
    by_cases hdot : first = dot
    · by_cases hslash : second = slash
      · rw [if_neg (by simp [hdot]), ok_bind, if_neg (by simp [hslash]), if_pos ⟨hdot, hslash⟩]
        exact ih (by omega)
      · rw [if_neg (by simp [hdot]), ok_bind, if_pos hslash, if_neg (by tauto)]
        exact ⟨_, rfl, hbounds, hname.trans (by rw [hrest])⟩
    · rw [if_pos hdot, if_neg (by tauto)]
      exact ⟨_, rfl, hbounds, hname.trans (by rw [hrest])⟩
  | case2 position length hshort =>
    refine ⟨_, rfl, hbounds, ?_⟩
    have hlength := @length_nameBytes image (position, length) hbounds
    match hname : nameBytes image (position, length) with
    | [] => rfl
    | [byte] => rfl
    | first :: second :: rest =>
      rw [hname] at hlength
      simp only [List.length_cons] at hlength
      exact absurd hlength.symm (hshort _)

theorem skipSeparators_eq_ok (hbounds : position + length ≤ image.length) :
    ∃ place, skipSeparators image position length = .ok place
      ∧ place.1 + place.2 ≤ image.length
      ∧ nameBytes image place
        = (nameBytes image (position, length)).dropWhile (fun byte => byte == slash) := by
  induction length generalizing position with
  | zero => exact ⟨_, rfl, hbounds, by simp [nameBytes]⟩
  | succ length ih =>
    obtain ⟨byte, hbyte, hname⟩ := nameBytes_succ hbounds
    rw [skipSeparators, load_eq_ok hbyte, ok_bind, hname, List.dropWhile_cons]
    by_cases hslash : byte = slash
    · rw [if_pos hslash, if_pos (by simpa using hslash)]
      exact ih (by omega)
    · rw [if_neg hslash, if_neg (by simpa using hslash)]
      exact ⟨_, rfl, hbounds, hname⟩

theorem getElem?_nameBytes (image : List UInt8) (base length index : ℕ) :
    (nameBytes image (base, length))[index]?
      = if index < length then image[base + index]? else none := by
  rw [nameBytes, List.getElem?_take]
  by_cases hindex : index < length <;> simp [hindex]

/-- A component starts at this index. -/
def startsAt (name : List UInt8) (index : ℕ) : Bool :=
  index == 0 || name[index - 1]? == some slash

section Reject

variable (hbounds : base + length ≤ image.length) (hname : nameBytes image (base, length) = name)
include hbounds hname

theorem load_nameBytes (hindex : index < length) :
    ∃ byte, load image (base + index) = .ok byte ∧ name[index]? = some byte := by
  have hlt : base + index < image.length := by omega
  refine ⟨image[base + index], load_eq_ok (List.getElem?_eq_getElem hlt), ?_⟩
  rw [← hname, getElem?_nameBytes, if_pos hindex, List.getElem?_eq_getElem hlt]

theorem doubleSeparator_eq_ok :
    doubleSeparator image base length index = .ok (name[index + 1]? == some slash) := by
  unfold doubleSeparator
  by_cases hnext : index + 1 < length
  · obtain ⟨byte, hload, hbyte⟩ := load_nameBytes hbounds hname hnext
    rw [if_pos hnext, Nat.add_assoc, hload, hbyte]
    simp [Except.map]
  · rw [if_neg hnext, ← hname, getElem?_nameBytes, if_neg hnext]
    rfl

theorem afterSeparator_eq_ok (hindex : index < length) :
    afterSeparator image base index = .ok (startsAt name index) := by
  unfold afterSeparator startsAt
  by_cases hzero : index = 0
  · simp [hzero]
  · have hbefore : index - 1 < length := by omega
    obtain ⟨byte, hprevious, hbyte⟩ := load_nameBytes hbounds hname hbefore
    rw [if_neg hzero, Nat.add_sub_assoc (by omega), hprevious, hbyte]
    simp [Except.map, hzero]

theorem parentComponent_eq_ok :
    parentComponent image base length index
      = .ok (name[index + 1]? == some dot && startsAt name index
          && (decide (length ≤ index + 2) || name[index + 2]? == some slash)) := by
  unfold parentComponent
  by_cases hnext : index + 1 < length
  · obtain ⟨second, hload, hsecond⟩ := load_nameBytes hbounds hname hnext
    rw [if_pos hnext, Nat.add_assoc, hload, hsecond, ok_bind]
    by_cases hdot : second = dot
    · rw [if_neg (by simpa using hdot), afterSeparator_eq_ok hbounds hname (by omega), ok_bind]
      by_cases hfirst : startsAt name index = true
      · rw [if_neg (by simp [hfirst])]
        by_cases hend : index + 2 = length
        · simp [hend, hdot, hfirst]
        · have hthird : index + 2 < length := by omega
          obtain ⟨byte, hlast, hbyte⟩ := load_nameBytes hbounds hname hthird
          rw [if_neg hend, Nat.add_assoc, hlast, hbyte]
          simp [Except.map, hdot, hfirst, show ¬ length ≤ index + 2 by omega]
      · rw [if_pos (by simpa using hfirst)]
        simp [hfirst]
    · rw [if_pos hdot]
      simp [hdot]
  · rw [if_neg hnext, ← hname, getElem?_nameBytes, if_neg hnext]
    rfl

theorem rejectedAt_eq_ok (hbyte : name[index]? = some byte) :
    ∃ rejected, rejectedAt image base length index byte = .ok rejected
      ∧ nameRejected (startsAt name index) (name.drop index)
        = (rejected || nameRejected (byte == slash) (name.drop (index + 1))) := by
  have hlength : name.length = length := hname ▸ length_nameBytes hbounds
  have hdrop : name.drop index = byte :: name.drop (index + 1) := by
    obtain ⟨hlt, heq⟩ := List.getElem?_eq_some_iff.mp hbyte
    rw [List.drop_eq_getElem_cons hlt, heq]
  have hempty : (name.drop (index + 2)).isEmpty = decide (length ≤ index + 2) := by
    rw [Bool.eq_iff_iff, List.isEmpty_iff, List.drop_eq_nil_iff, hlength, decide_eq_true_iff]
  rw [hdrop, nameRejected, List.tail_drop, List.head?_drop, List.head?_drop, hempty, rejectedAt,
    doubleSeparator_eq_ok hbounds hname, parentComponent_eq_ok hbounds hname]
  by_cases hzero : byte = 0
  · exact ⟨true, if_pos hzero, by simp [hzero]⟩
  rw [if_neg hzero]
  by_cases hslash : byte = slash
  · exact ⟨_, if_pos hslash, by simp [hslash, show (slash == 0) = false by decide,
      show (slash == dot) = false by decide]⟩
  · rw [if_neg hslash]
    by_cases hdot : byte = dot
    · exact ⟨_, if_pos hdot, by simp [hdot, show (dot == 0) = false by decide,
        show (dot == slash) = false by decide]⟩
    · exact ⟨false, if_neg hdot, by simp [hzero, hslash, hdot]⟩

theorem rejectLoop_eq_ok {remaining : ℕ} (hremaining : index + remaining = length) :
    rejectLoop image base length index remaining
      = .ok (nameRejected (startsAt name index) (name.drop index)) := by
  induction remaining generalizing index with
  | zero =>
    have hlength : name.length = length := hname ▸ length_nameBytes hbounds
    rw [rejectLoop, List.drop_eq_nil_of_le (by omega)]
    rfl
  | succ remaining ih =>
    have hindex : index < length := by omega
    obtain ⟨byte, hload, hbyte⟩ := load_nameBytes hbounds hname hindex
    obtain ⟨rejected, htest, hresult⟩ := rejectedAt_eq_ok hbounds hname hbyte
    have hstart : startsAt name (index + 1) = (byte == slash) := by
      simp [startsAt, hbyte]
    rw [rejectLoop, hload, ok_bind, htest, ok_bind, ih (by omega), hresult, hstart]
    cases rejected <;> rfl

end Reject

/-- The path of a name that lies in the image. -/
theorem pathAt_eq_ok (hbounds : position + length ≤ image.length) :
    pathAt image position length = .ok (canonicalPath (nameBytes image (position, length))) := by
  obtain ⟨⟨start, count⟩, hcurrent, hstart, hdropped⟩ := skipCurrent_eq_ok hbounds
  obtain ⟨⟨base, size⟩, hseparators, hbase, hrest⟩ := skipSeparators_eq_ok hstart
  have hlength : (nameBytes image (base, size)).length = size := length_nameBytes hbase
  have hblock : loadBlock image base size = .ok (nameBytes image (base, size)) :=
    loadBlock_eq_ok hbase
  rw [pathAt, hcurrent, ok_bind]
  dsimp only
  rw [hseparators, ok_bind, canonicalPath]
  rw [← hdropped, ← hrest]
  by_cases hempty : size = 0
  · rw [if_pos hempty, if_pos (Or.inl (List.length_eq_zero_iff.mp (hlength.trans hempty)))]
  have hsingle : singleDot image base size
      = .ok (decide (nameBytes image (base, size) = [dot])) := by
    unfold singleDot
    by_cases hone : size = 1
    · subst hone
      obtain ⟨byte, hbyte, hcons⟩ := @nameBytes_succ image base 0 hbase
      rw [if_pos rfl, load_eq_ok hbyte, hcons]
      simp [Except.map, nameBytes, beq_eq_decide]
    · rw [if_neg hone, decide_eq_false]
      intro hdot
      rw [hdot] at hlength
      exact hone hlength.symm
  generalize hname : nameBytes image (base, size) = name at hlength hblock hsingle ⊢
  rw [if_neg hempty, hsingle, ok_bind, rejectLoop_eq_ok hbase hname (by omega), ok_bind, hblock]
  by_cases hdot : name = [dot]
  · rw [if_pos (by simpa using hdot), if_pos (Or.inr hdot)]
  have hkept : ¬ (name = [] ∨ name = [dot]) := by
    rintro (rfl | hother)
    · exact hempty hlength.symm
    · exact hdot hother
  rw [if_neg (by simpa using hdot), if_neg hkept, List.drop_zero]
  by_cases hreject : nameRejected true name = true
  · rw [if_pos (by simpa [startsAt] using hreject), if_pos hreject]
  · rw [if_neg (by simpa [startsAt] using hreject), if_neg hreject]
    rfl

/-! ## Records -/

/-- The record at an offset, if its header reads and its name and data lie
inside the image. -/
def placed (image : List UInt8) (offset : ℕ) : Option Placed :=
  match readHeader (image.drop offset) with
  | none => none
  | some header =>
    let nameOffset := offset + cpioHeaderSize
    let dataOffset := align4 (nameOffset + header.nameSize)
    if nameOffset + header.nameSize ≤ image.length
        ∧ (nameBytes image (nameOffset, header.nameSize)).getLast? = some 0
        ∧ dataOffset + header.fileSize ≤ image.length then
      some ⟨header, nameOffset, dataOffset⟩
    else none

/-- What a placed record asks of the reader. -/
def recordOf (image : List UInt8) (record : Placed) : Record :=
  let name := nameBytes image (record.nameOffset, record.header.nameSize)
  let next := align4 (record.dataOffset + record.header.fileSize)
  if cString name = ascii "TRAILER!!!" then .trailer
  else if cString name = ascii "." then .skipped next
  else
    .entry name.dropLast (nameBytes image (record.dataOffset, record.header.fileSize))
      record.header next

theorem readRecord_eq (image : List UInt8) (offset : ℕ) :
    readRecord image offset = (placed image offset).map (recordOf image) := by
  unfold readRecord placed
  cases readHeader (image.drop offset) with
  | none => rfl
  | some header =>
    dsimp only [Option.bind_eq_bind, Option.bind_some, nameBytes]
    generalize offset + cpioHeaderSize = start
    generalize align4 (start + header.nameSize) = data
    have hname : (start ≤ image.length ∧ header.nameSize ≤ image.length - start)
        ↔ start + header.nameSize ≤ image.length := by omega
    have hdata : (data ≤ image.length ∧ header.fileSize ≤ image.length - data)
        ↔ data + header.fileSize ≤ image.length := by omega
    simp only [guard, hname, hdata]
    by_cases hfits : start + header.nameSize ≤ image.length
    · by_cases hlast : ((image.drop start).take header.nameSize).getLast? = some 0
      · by_cases hkept : data + header.fileSize ≤ image.length
        · simp only [hfits, hlast, hkept, and_self, if_true, Option.map_some, recordOf,
            nameBytes]
          split_ifs <;> simp [*, show ascii "." ≠ ascii "TRAILER!!!" by decide]
        · simp [hkept]
      · simp [hlast]
    · simp [hfits]

/-- What is known about a placed record. -/
structure Placed.Inside (image : List UInt8) (offset : ℕ) (record : Placed) : Prop where
  name : record.nameOffset + record.header.nameSize ≤ image.length
  last : (nameBytes image (record.nameOffset, record.header.nameSize)).getLast? = some 0
  data : record.dataOffset + record.header.fileSize ≤ image.length
  later : offset < record.dataOffset

theorem placed_inside
    (hrecord : placed image offset = some record) : record.Inside image offset := by
  unfold placed at hrecord
  split at hrecord
  · contradiction
  rename_i header hheader
  dsimp only at hrecord
  split at hrecord
  · rename_i hbounds
    cases hrecord
    refine ⟨hbounds.1, hbounds.2.1, hbounds.2.2, ?_⟩
    have hle := le_align4 (offset + cpioHeaderSize + header.nameSize)
    have hsize : 0 < cpioHeaderSize := by decide
    dsimp only
    omega
  · contradiction

theorem readHeader_nameSize_pos {bytes : List UInt8} {header : NewcHeader}
    (hheader : readHeader bytes = some header) : 0 < header.nameSize := by
  unfold readHeader at hheader
  simp only [Option.bind_eq_bind, Option.bind_eq_some_iff] at hheader
  obtain ⟨-, -, mode, -, uid, -, gid, -, fileSize, -, nameSize, -, done, hguard, hresult⟩ := hheader
  cases hresult
  by_contra hzero
  have hempty : nameSize = 0 := by
    dsimp only at hzero
    omega
  simp [guard, hempty] at hguard

/-- Behind an object the additions of the reader do not wrap. -/
theorem room_of_object (himage : image.length ≤ ptrdiffMax) :
    image.length + 113 < sizeBound := by
  unfold ptrdiffMax at himage
  unfold sizeBound
  omega

theorem placedAt_eq_ok (himage : image.length ≤ ptrdiffMax)
    (hoffset : offset + cpioHeaderSize ≤ image.length) :
    placedAt image offset = .ok (placed image offset) := by
  have hroom := room_of_object himage
  rw [placedAt, headerAt_eq_ok hoffset, ok_bind, placed]
  cases hheader : readHeader (image.drop offset) with
  | none => rfl
  | some header =>
    have hpositive := readHeader_nameSize_pos hheader
    dsimp only
    rw [add_eq_ok (by omega), ok_bind]
    by_cases hname : offset + cpioHeaderSize + header.nameSize ≤ image.length
    · have hindex : header.nameSize - 1 < header.nameSize := by omega
      obtain ⟨byte, hload, hbyte⟩ := load_nameBytes hname rfl hindex
      have hlast : (nameBytes image (offset + cpioHeaderSize, header.nameSize)).getLast?
          = some byte := by
        rw [List.getLast?_eq_getElem?, length_nameBytes hname]
        exact hbyte
      rw [if_neg (by omega), hload, ok_bind, hlast]
      by_cases hzero : byte = 0
      · rw [if_neg (by simpa using hzero), add_eq_ok (by omega), ok_bind,
          alignUp_eq_ok (by omega), ok_bind]
        by_cases hdata : align4 (offset + cpioHeaderSize + header.nameSize) + header.fileSize
            ≤ image.length
        · rw [if_neg (by omega), if_pos ⟨hname, by rw [hzero], hdata⟩]
        · rw [if_pos (by omega), if_neg (by tauto)]
      · rw [if_pos hzero, if_neg (by simp [hzero])]
    · rw [if_pos (by omega), if_neg (by tauto)]

/-! ## Stored names have no parent component -/

theorem canonicalPath_eq_some {path : List UInt8} (hpath : canonicalPath name = some path) :
    ∃ rest, path = slash :: rest ∧ rest ≠ [] ∧ rest.head? ≠ some slash ∧
      nameRejected true rest = false := by
  rw [canonicalPath] at hpath
  split at hpath
  · cases hpath
  rename_i hname
  split at hpath
  · cases hpath
  rename_i haccepted
  refine ⟨_, (Option.some.inj hpath).symm, fun hempty => hname (.inl hempty), ?_,
    Bool.eq_false_iff.mpr haccepted⟩
  intro hhead
  have hstop := List.head?_dropWhile_not (fun byte => byte == slash) (dropCurrent name)
  rw [hhead] at hstop
  simp at hstop

/-- Behind a separator another component begins. -/
theorem nameRejected_after {start : Bool} {left tail : List UInt8}
    (hname : nameRejected start (left ++ slash :: tail) = false) :
    nameRejected true tail = false ∧ tail.head? ≠ some slash := by
  induction left generalizing start with
  | nil =>
    rw [List.nil_append, nameRejected] at hname
    simp only [Bool.or_eq_false_iff, beq_self_eq_true, Bool.true_and] at hname
    exact ⟨hname.2, by simpa using hname.1.1.2⟩
  | cons byte left ih =>
    rw [List.cons_append, nameRejected, Bool.or_eq_false_iff] at hname
    exact ih hname.2

theorem parent_not_mem_of_nameRejected {parts : List (List UInt8)}
    (hname : nameRejected true ([slash].intercalate parts) = false) : [dot, dot] ∉ parts := by
  induction parts with
  | nil => exact List.not_mem_nil
  | cons first rest ih =>
    rw [List.mem_cons, not_or]
    cases rest with
    | nil =>
      refine ⟨?_, List.not_mem_nil⟩
      rintro rfl
      revert hname
      decide
    | cons second rest =>
      rw [List.intercalate_cons_cons, List.append_assoc, List.singleton_append] at hname
      refine ⟨?_, ih (nameRejected_after hname).1⟩
      rintro rfl
      simp [nameRejected] at hname

theorem canonicalPath_parentFree {path : List UInt8} (hpath : canonicalPath name = some path) :
    [dot, dot] ∉ components slash path := by
  obtain ⟨rest, rfl, -, -, haccepted⟩ := canonicalPath_eq_some hpath
  have hrest : [slash].intercalate (rest.splitOn slash) = rest := List.intercalate_splitOn slash
  rw [components_separator_cons, components, List.mem_filter]
  rintro ⟨hmem, -⟩
  exact parent_not_mem_of_nameRejected (by rwa [hrest]) hmem

/-! ## The table -/

/-- A reader's table and the list model's table hold the same entries. -/
def TablesAgree (image : List UInt8) (table : Option (List ReaderEntry))
    (initrd : Option FacetInitrd) : Prop :=
  table.map (List.map (ReaderEntry.view image)) = initrd.map FacetInitrd.entries

/-- What the reader guarantees of its entries beyond the list model. -/
structure SoundTable (image : List UInt8) (table : List ReaderEntry) : Prop where
  count : table.length ≤ cpioMaxEntries
  inside : ∀ entry ∈ table, entry.dataOffset + entry.size ≤ image.length
  parentFree : ∀ entry ∈ table, [dot, dot] ∉ components slash entry.path

theorem SoundTable.concat {entry : ReaderEntry}
    (htable : SoundTable image table) (hcount : table.length ≠ cpioMaxEntries)
    (hinside : entry.dataOffset + entry.size ≤ image.length)
    (hparent : [dot, dot] ∉ components slash entry.path) :
    SoundTable image (table ++ [entry]) := by
  refine ⟨?_, ?_, ?_⟩
  · have hle := htable.count
    rw [List.length_append, List.length_singleton]
    omega
  · exact List.forall_mem_append.mpr ⟨htable.inside, List.forall_mem_singleton.mpr hinside⟩
  · exact List.forall_mem_append.mpr ⟨htable.parentFree, List.forall_mem_singleton.mpr hparent⟩

/-- A computation of the reader ends without a fault, with the table of the list model. -/
def Tabulates (image : List UInt8) (read : Except Fault (Option (List ReaderEntry)))
    (entries : Option (List InitrdEntry)) : Prop :=
  ∃ result, read = .ok result ∧ result.map (List.map (ReaderEntry.view image)) = entries
    ∧ ∀ table ∈ result, SoundTable image table

theorem tabulates_none (image : List UInt8) : Tabulates image (.ok none) none :=
  ⟨none, rfl, rfl, fun _ hnone => nomatch hnone⟩

theorem SoundTable.tabulates {entries : List InitrdEntry}
    (htable : SoundTable image table) (hagree : table.map (ReaderEntry.view image) = entries) :
    Tabulates image (.ok (some table)) (some entries) :=
  ⟨some table, rfl, congrArg some hagree, fun _ hsome => Option.mem_some_iff.mp hsome ▸ htable⟩

theorem paths_of_agree (hagree : table.map (ReaderEntry.view image) = initrd.entries) :
    table.map ReaderEntry.path = initrd.entries.map InitrdEntry.path := by
  rw [← hagree, List.map_map]
  rfl

theorem dropLast_nameBytes {base : ℕ} (hbounds : base + length ≤ image.length) :
    (nameBytes image (base, length)).dropLast = nameBytes image (base, length - 1) := by
  rw [List.dropLast_eq_take, length_nameBytes hbounds, nameBytes, nameBytes, List.take_take]
  congr 1
  omega

/-- The entry of one file or directory record. -/
def entryOf (path data : List UInt8) (header : NewcHeader) : InitrdEntry where
  path := path
  data := data
  directory := header.mode &&& fileTypeMask = directoryFile
  mode := UInt32.ofNat header.mode
  uid := UInt32.ofNat header.uid
  gid := UInt32.ofNat header.gid

/-- What adding a record does to the entries. -/
theorem entries_addRecord (initrd : FacetInitrd) (name data : List UInt8) (header : NewcHeader) :
    (addRecord initrd name data header).map FacetInitrd.entries
      = if header.mode &&& fileTypeMask ≠ regularFile
            ∧ header.mode &&& fileTypeMask ≠ directoryFile then none
        else if initrd.entries.length = cpioMaxEntries then none
        else (canonicalPath name).bind (fun path =>
          if path ∈ initrd.entries.map InitrdEntry.path then none
          else some (initrd.entries ++ [entryOf path data header])) := by
  unfold addRecord
  dsimp only
  split
  · rfl
  split
  · rfl
  split
  · rename_i hpath
    rw [hpath]
    rfl
  · rename_i path hpath
    simp only [hpath, Option.bind_some]
    split
    · rfl
    · rfl

/-- Storing a record does to the table what the list model does to its own. -/
theorem storeEntry_agrees (hinside : record.Inside image offset) (hsound : SoundTable image table)
    (hagree : table.map (ReaderEntry.view image) = initrd.entries) :
    Tabulates image (storeEntry image table record) ((addRecord initrd
      (nameBytes image (record.nameOffset, record.header.nameSize)).dropLast
      (nameBytes image (record.dataOffset, record.header.fileSize)) record.header).map
        FacetInitrd.entries) := by
  have hlength : table.length = initrd.entries.length := by rw [← hagree, List.length_map]
  have hname := hinside.name
  rw [storeEntry, entries_addRecord, pathAt_eq_ok (by omega), dropLast_nameBytes hname, hlength,
    paths_of_agree hagree, ok_bind]
  refine ite_related Iff.rfl (fun _ => tabulates_none image) fun _ => ?_
  refine ite_related Iff.rfl (fun _ => tabulates_none image) fun hfull => ?_
  cases hpath : canonicalPath
      (nameBytes image (record.nameOffset, record.header.nameSize - 1)) with
  | none => exact tabulates_none image
  | some path =>
    refine ite_related Iff.rfl (fun _ => tabulates_none image) fun _ => ?_
    refine (hsound.concat (hlength ▸ hfull) hinside.data
      (canonicalPath_parentFree hpath)).tabulates ?_
    rw [List.map_append, hagree]
    rfl

theorem nextOffset_eq_ok (himage : image.length ≤ ptrdiffMax)
    (hinside : record.Inside image offset) :
    nextOffset record = .ok (align4 (record.dataOffset + record.header.fileSize)) := by
  have hdata := hinside.data
  have hroom := room_of_object himage
  rw [nextOffset, add_eq_ok (by omega), ok_bind, alignUp_eq_ok (by omega)]

/-- A terminated name is compared with a literal as a C string. -/
theorem equalsLiteral_name {literal : List UInt8}
    (hinside : record.Inside image offset) (hliteral : 0 ∉ literal) :
    equalsLiteral image record.nameOffset literal
      = .ok (decide (cString (nameBytes image (record.nameOffset, record.header.nameSize))
          = literal)) := by
  have hsplit : image.drop record.nameOffset
      = nameBytes image (record.nameOffset, record.header.nameSize)
        ++ (image.drop record.nameOffset).drop record.header.nameSize :=
    (List.take_append_drop _ _).symm
  exact equalsLiteral_eq_ok hsplit (List.mem_of_getLast? hinside.last) hliteral

/-- The loop never faults and builds the table of the list model. -/
theorem readLoop_agrees (himage : image.length ≤ ptrdiffMax) {fuel : ℕ}
    (hfuel : image.length ≤ offset + fuel) (hoffset : offset ≤ image.length + 3)
    (hsound : SoundTable image table)
    (hagree : table.map (ReaderEntry.view image) = initrd.entries) :
    Tabulates image (readLoop image (fuel + 1) offset table)
      ((readRecords image (fuel + 1) offset initrd).map FacetInitrd.entries) := by
  have hheader : cpioHeaderSize = 110 := rfl
  have hbound := room_of_object himage
  induction fuel generalizing offset table initrd with
  | zero =>
    rw [readLoop, add_eq_ok (by omega), ok_bind, readRecords_succ, if_pos (by omega),
      if_pos (by omega)]
    exact hsound.tabulates hagree
  | succ fuel ih =>
    rw [readLoop, add_eq_ok (by omega), ok_bind, readRecords_succ,
      apply_ite (Option.map FacetInitrd.entries)]
    refine ite_related Iff.rfl (fun _ => hsound.tabulates hagree) fun hend => ?_
    rw [placedAt_eq_ok himage (by omega), ok_bind, readRecord_eq]
    cases hplaced : placed image offset with
    | none => exact tabulates_none image
    | some record =>
      have hinside := placed_inside hplaced
      have hdata := hinside.data
      have hlater := hinside.later
      have hnext := nextOffset_eq_ok himage hinside
      have hbefore := le_align4 (record.dataOffset + record.header.fileSize)
      have hafter : align4 (record.dataOffset + record.header.fileSize)
          ≤ image.length + 3 := by
        unfold align4
        omega
      dsimp only [Option.map_some]
      rw [equalsLiteral_name hinside (by decide), equalsLiteral_name hinside (by decide),
        ok_bind, recordOf]
      by_cases htrailer : cString (nameBytes image
          (record.nameOffset, record.header.nameSize)) = ascii "TRAILER!!!"
      · rw [if_pos (by simpa using htrailer), if_pos htrailer]
        exact hsound.tabulates hagree
      rw [if_neg (by simpa using htrailer), if_neg htrailer, ok_bind]
      by_cases hdot : cString (nameBytes image
          (record.nameOffset, record.header.nameSize)) = ascii "."
      · rw [if_pos (by simpa using hdot), if_pos hdot, hnext, ok_bind]
        exact ih (by omega) hafter hsound hagree
      obtain ⟨result, hstore, hresult, hgrown⟩ := storeEntry_agrees hinside hsound hagree
      rw [if_neg (by simpa using hdot), if_neg hdot, hstore, ok_bind]
      dsimp only
      cases result with
      | none =>
        rw [Option.map_none, eq_comm, Option.map_eq_none_iff] at hresult
        rw [hresult]
        exact tabulates_none image
      | some grown =>
        rw [Option.map_some, eq_comm, Option.map_eq_some_iff] at hresult
        obtain ⟨next, hadd, hentries⟩ := hresult
        dsimp only
        rw [hnext, ok_bind, hadd, Option.bind_some]
        exact ih (by omega) hafter (hgrown grown rfl) hentries.symm

/-- The reader returns the table of the list model, without a fault. -/
theorem readImage_agrees (image : BootImage) :
    ∃ result, readImage image = .ok result
      ∧ TablesAgree image.bytes result (facetInitrdCreate image.bytes)
      ∧ ∀ table ∈ result, SoundTable image.bytes table := by
  have hroot : SoundTable image.bytes [rootReaderEntry] :=
    ⟨by decide, List.forall_mem_singleton.mpr (Nat.zero_le _),
      List.forall_mem_singleton.mpr (by decide)⟩
  change Tabulates image.bytes (readImage image) ((facetInitrdCreate image.bytes).map _)
  rw [facetInitrdCreate, apply_ite (Option.map FacetInitrd.entries)]
  refine ite_related Iff.rfl (fun _ => tabulates_none _) fun hlong => ?_
  exact readLoop_agrees image.object (by omega) (by omega) hroot rfl

/-- On every object in memory the reader ends, loads inside the image only,
never wraps, and returns nothing or a well-formed table. -/
theorem readImage_safe (image : BootImage) :
    ∃ result, readImage image = .ok result ∧ ∀ table ∈ result,
      (∃ first, table.head? = some first ∧ first.path = [slash] ∧ first.directory = true)
        ∧ table.length ≤ cpioMaxEntries
        ∧ (table.map ReaderEntry.path).Nodup
        ∧ ∀ entry ∈ table, entry.path.head? = some slash
          ∧ [dot, dot] ∉ components slash entry.path
          ∧ entry.dataOffset + entry.size ≤ image.bytes.length := by
  obtain ⟨result, hread, hagree, hsound⟩ := readImage_agrees image
  refine ⟨result, hread, ?_⟩
  intro table htable
  have htable' : result = some table := htable
  rw [TablesAgree, htable', Option.map_some, eq_comm, Option.map_eq_some_iff] at hagree
  obtain ⟨initrd, -, hentries⟩ := hagree
  have hpaths := paths_of_agree hentries.symm
  refine ⟨?_, (hsound table htable).count, ?_, ?_⟩
  · have hroot := initrd.rootFirst
    rw [hentries, List.head?_map, Option.map_eq_some_iff] at hroot
    obtain ⟨first, hfirst, hview⟩ := hroot
    exact ⟨first, hfirst, congrArg InitrdEntry.path hview, congrArg InitrdEntry.directory hview⟩
  · rw [hpaths]
    exact initrd.distinct
  · intro entry hentry
    have hview : ReaderEntry.view image.bytes entry ∈ initrd.entries := by
      rw [hentries]
      exact List.mem_map_of_mem hentry
    exact ⟨(initrd.stored _ hview).absolute, (hsound table htable).parentFree entry hentry,
      (hsound table htable).inside entry hentry⟩

end FacetOS.Initrd
