import FacetOS.Core.Text
import FacetOS.Core.Paths

/-!
# The boot archive

`facet_initrd_create` reads a newc archive once and keeps a table of its files
and directories; everything later works on that table.  The table is a
structure that carries what the reader establishes: the synthesised root comes
first, no two entries share a path, and every path is absolute and free of zero
bytes.  Allocation is taken to succeed, and the image to be small enough for
its offsets not to wrap.
-/

namespace FacetOS.Initrd

def slash : UInt8 := 47
def dot : UInt8 := 46

def cpioHeaderSize : ℕ := 110
def cpioMaxEntries : ℕ := 1024
def facetPathMax : ℕ := 4096
def sizeMax : ℕ := 2 ^ 64 - 1

/-! ## Entries -/

/-- One entry; `data` holds the `size` bytes at the entry's data pointer. -/
structure InitrdEntry where
  path : List UInt8
  data : List UInt8
  directory : Bool
  mode : UInt32
  uid : UInt32
  gid : UInt32
  deriving DecidableEq

def InitrdEntry.size (entry : InitrdEntry) : ℕ := entry.data.length

/-- The entry made for `/` before any record is read. -/
def rootEntry : InitrdEntry where
  path := [slash]
  data := []
  directory := true
  mode := 0o040755
  uid := 0
  gid := 0

/-- What every stored path satisfies. -/
structure StoredPath (path : List UInt8) : Prop where
  absolute : path.head? = some slash
  terminated : 0 ∉ path

/-- The table of an accepted archive. -/
structure FacetInitrd where
  entries : List InitrdEntry
  rootFirst : entries.head? = some rootEntry
  distinct : (entries.map InitrdEntry.path).Nodup
  stored : ∀ entry ∈ entries, StoredPath entry.path

/-! ## Names -/

/-- Some byte of the name is zero, starts an empty component or starts a parent
component; `start` tells whether the name or a component begins here. -/
def nameRejected (start : Bool) : List UInt8 → Bool
  | [] => false
  | byte :: rest =>
    byte == 0
      || (byte == slash && rest.head? == some slash)
      || (byte == dot && rest.head? == some dot && start
          && (rest.tail.isEmpty || rest.tail.head? == some slash))
      || nameRejected (byte == slash) rest

/-- Drop every leading `./`. -/
def dropCurrent : List UInt8 → List UInt8
  | first :: second :: rest =>
    if first = dot ∧ second = slash then dropCurrent rest else first :: second :: rest
  | name => name

/-- The stored path of an archive name. -/
def canonicalPath (name : List UInt8) : Option (List UInt8) :=
  let name := (dropCurrent name).dropWhile (fun byte => byte == slash)
  if name = [] ∨ name = [dot] then none
  else if nameRejected true name then none
  else some (slash :: name)

theorem zero_not_mem_of_nameRejected {start : Bool} {name : List UInt8}
    (hname : nameRejected start name = false) : 0 ∉ name := by
  induction name generalizing start with
  | nil => simp
  | cons byte rest ih =>
    simp only [nameRejected, Bool.or_eq_false_iff] at hname
    have hbyte : byte ≠ 0 := by simpa using hname.1.1.1
    simp [Ne.symm hbyte, ih hname.2]

theorem canonicalPath_stored {name path : List UInt8}
    (hpath : canonicalPath name = some path) : StoredPath path := by
  unfold canonicalPath at hpath
  dsimp only at hpath
  split at hpath
  · contradiction
  split at hpath
  · contradiction
  rename_i haccepted
  rw [Option.some.injEq] at hpath
  subst hpath
  have hzero := zero_not_mem_of_nameRejected (Bool.eq_false_iff.mpr haccepted)
  refine ⟨rfl, ?_⟩
  rw [List.mem_cons, not_or]
  exact ⟨by decide, hzero⟩

/-! ## Records -/

def align4 (value : ℕ) : ℕ := (value + 3) / 4 * 4

def hexDigit (byte : UInt8) : Option ℕ :=
  if 48 ≤ byte ∧ byte ≤ 57 then some (byte.toNat - 48)
  else if 97 ≤ byte ∧ byte ≤ 102 then some (byte.toNat - 97 + 10)
  else if 65 ≤ byte ∧ byte ≤ 70 then some (byte.toNat - 65 + 10)
  else none

def hexField (text : List UInt8) : Option ℕ :=
  text.foldlM (fun value byte => do
    let digit ← hexDigit byte
    if (sizeMax - digit) / 16 < value then none else some (value * 16 + digit)) 0

structure NewcHeader where
  mode : ℕ
  uid : ℕ
  gid : ℕ
  fileSize : ℕ
  nameSize : ℕ

/-- The eight digits at one position of a header. -/
def headerField (header : List UInt8) (position : ℕ) : Option ℕ :=
  hexField ((header.drop position).take 8)

def readHeader (header : List UInt8) : Option NewcHeader := do
  guard (header.take 6 = ascii "070701" ∨ header.take 6 = ascii "070702")
  let mode ← headerField header 14
  let uid ← headerField header 22
  let gid ← headerField header 30
  let fileSize ← headerField header 54
  let nameSize ← headerField header 94
  guard (nameSize ≠ 0)
  return ⟨mode, uid, gid, fileSize, nameSize⟩

/-- What one record asks of the reader; a record other than the trailer also
says where the next one starts. -/
inductive Record
  | trailer
  | skipped (next : ℕ)
  | entry (name data : List UInt8) (header : NewcHeader) (next : ℕ)

variable (image : List UInt8)

/-- The record at an offset, with the bounds of its name and data checked. -/
def readRecord (offset : ℕ) : Option Record := do
  let header ← readHeader (image.drop offset)
  let nameOffset := offset + cpioHeaderSize
  guard (nameOffset ≤ image.length ∧ header.nameSize ≤ image.length - nameOffset)
  let name := (image.drop nameOffset).take header.nameSize
  guard (name.getLast? = some 0)
  let dataOffset := align4 (nameOffset + header.nameSize)
  guard (dataOffset ≤ image.length ∧ header.fileSize ≤ image.length - dataOffset)
  let next := align4 (dataOffset + header.fileSize)
  if cString name = ascii "TRAILER!!!" then return .trailer
  else if cString name = ascii "." then return .skipped next
  else return .entry name.dropLast ((image.drop dataOffset).take header.fileSize) header next

def fileTypeMask : ℕ := 0o170000
def regularFile : ℕ := 0o100000
def directoryFile : ℕ := 0o040000

/-- Append one entry to the table. -/
def FacetInitrd.append (initrd : FacetInitrd) (entry : InitrdEntry)
    (hpath : StoredPath entry.path)
    (hfresh : entry.path ∉ initrd.entries.map InitrdEntry.path) : FacetInitrd where
  entries := initrd.entries ++ [entry]
  rootFirst := by
    have hroot := initrd.rootFirst
    cases hentries : initrd.entries with
    | nil => simp [hentries] at hroot
    | cons first rest => simpa [hentries] using hroot
  distinct := by
    rw [List.map_append, List.map_singleton, List.nodup_append]
    refine ⟨initrd.distinct, List.nodup_singleton _, ?_⟩
    intro path hmem other hother heq
    rw [List.mem_singleton.mp hother] at heq
    exact hfresh (heq ▸ hmem)
  stored := by
    intro other hother
    cases List.mem_append.mp hother with
    | inl hold => exact initrd.stored other hold
    | inr hnew => exact List.mem_singleton.mp hnew ▸ hpath

/-- The checks and the table update for one file or directory record. -/
def addRecord (initrd : FacetInitrd) (name data : List UInt8) (header : NewcHeader) :
    Option FacetInitrd :=
  let kind := header.mode &&& fileTypeMask
  if kind ≠ regularFile ∧ kind ≠ directoryFile then none
  else if initrd.entries.length = cpioMaxEntries then none
  else
    match hpath : canonicalPath name with
    | none => none
    | some path =>
      if hfresh : path ∈ initrd.entries.map InitrdEntry.path then none
      else
        some (initrd.append
          { path := path
            data := data
            directory := kind = directoryFile
            mode := UInt32.ofNat header.mode
            uid := UInt32.ofNat header.uid
            gid := UInt32.ofNat header.gid }
          (canonicalPath_stored hpath) hfresh)

/-- The table before the first record. -/
def FacetInitrd.rootOnly : FacetInitrd where
  entries := [rootEntry]
  rootFirst := rfl
  distinct := List.nodup_singleton _
  stored := by
    intro entry hentry
    rw [List.mem_singleton.mp hentry]
    exact ⟨rfl, by decide⟩

/-- The record loop.  Each round moves past at least one header, so a fuel of
one round per header position is never used up. -/
def readRecords : ℕ → ℕ → FacetInitrd → Option FacetInitrd
  | 0, _, _ => none
  | fuel + 1, offset, initrd =>
    if image.length < offset + cpioHeaderSize then some initrd
    else
      match readRecord image offset with
      | none => none
      | some .trailer => some initrd
      | some (.skipped next) => readRecords fuel next initrd
      | some (.entry name data header next) =>
        (addRecord initrd name data header).bind (readRecords fuel next)

def facetInitrdCreate : Option FacetInitrd :=
  if image.length < cpioHeaderSize then none
  else readRecords image (image.length + 1) 0 FacetInitrd.rootOnly

/-! ## The loop ends -/

theorem le_align4 (value : ℕ) : value ≤ align4 value := by
  unfold align4
  omega

/-- Where a record says the next one starts. -/
def Record.next? : Record → Option ℕ
  | .trailer => none
  | .skipped next => some next
  | .entry _ _ _ next => some next

theorem offset_lt_next {image : List UInt8} {offset : ℕ} {record : Record} {next : ℕ}
    (hrecord : readRecord image offset = some record) (hnext : record.next? = some next) :
    offset < next := by
  unfold readRecord at hrecord
  simp only [Option.bind_eq_bind, Option.bind_eq_some_iff] at hrecord
  obtain ⟨header, -, -, -, -, -, -, -, hrecord⟩ := hrecord
  have hname := le_align4 (offset + cpioHeaderSize + header.nameSize)
  have hdata := le_align4
    (align4 (offset + cpioHeaderSize + header.nameSize) + header.fileSize)
  have hsize : 0 < cpioHeaderSize := by decide
  split at hrecord
  · cases hrecord
    contradiction
  · split at hrecord <;> cases hrecord <;> cases hnext <;> omega

theorem readRecords_succ (fuel offset : ℕ) (initrd : FacetInitrd) :
    readRecords image (fuel + 1) offset initrd
      = if image.length < offset + cpioHeaderSize then some initrd
        else
          match readRecord image offset with
          | none => none
          | some .trailer => some initrd
          | some (.skipped next) => readRecords image fuel next initrd
          | some (.entry name data header next) =>
            (addRecord initrd name data header).bind (readRecords image fuel next) := rfl

/-- The record of an empty regular file whose name needs no padding. -/
def fileRecord (name : List UInt8) : List UInt8 :=
  ascii "07070100000001000081a4000000000000000000000001000000000000000000000000000000000000" ++
    ascii "0000000000000000000" ++ [UInt8.ofNat (49 + name.length)] ++ ascii "00000000" ++
    name ++ [0]

end FacetOS.Initrd
