import FacetOS.Initrd.Accepted
import FacetOS.Initrd.Lookup
import FacetOS.Core.Utf8

/-!
# The archive tool

`facet-initrd` keeps an archive as a map from names to entries and writes it
out sorted by name, followed by a trailer record.  Names are Python strings,
which may hold surrogates that do not encode; everything else follows the
Python source too, whose integers do not wrap and whose format `08x` pads to
eight digits without ever cutting longer numbers.
-/

namespace FacetOS.Initrd

open Paths
open Passes (ite_error_eq_ok)

/-! ## Names -/

inductive NameError
  | emptyOrNul
  | notRelative (value : List CodePoint)
  | escapesRoot (value : List CodePoint)
  deriving DecidableEq

/-- Both slashes separate components. -/
def forwardSlashes (value : List CodePoint) : List CodePoint :=
  value.map (fun point => if point = .scalar '\\' then .scalar '/' else point)

def rootName : List CodePoint := [.scalar '.']

def parentName : List CodePoint := [.scalar '.', .scalar '.']

def cleanName (value : List CodePoint) : Except NameError (List CodePoint) :=
  if value = [] ∨ .scalar '\x00' ∈ value then .error .emptyOrNul
  else
    let value := forwardSlashes value
    if value.head? = some (.scalar '/') then .error (.notRelative value)
    else
      let parts := (value.splitOn (.scalar '/')).filter
        (fun part => part ≠ [] ∧ part ≠ rootName)
      if parentName ∈ parts then .error (.escapesRoot value)
      else if parts = [] then .ok rootName
      else .ok ([.scalar '/'].intercalate parts)

/-! ## Writing -/

structure ToolEntry where
  name : List CodePoint
  mode : ℕ
  uid : ℕ
  gid : ℕ
  data : List UInt8
  deriving DecidableEq

/-- The exception of Python for a string with surrogates. -/
structure UnicodeEncodeError where
  object : List CodePoint
  deriving DecidableEq

/-- `name.encode("utf-8")`. -/
def encodeUtf8 (name : List CodePoint) : Except UnicodeEncodeError (List UInt8) :=
  if Encodes name then .ok (utf8 name) else .error ⟨name⟩

/-- A lower-case hexadecimal digit. -/
def hexChar (digit : ℕ) : UInt8 :=
  if digit < 10 then UInt8.ofNat (48 + digit) else UInt8.ofNat (87 + digit)

/-- The digits of a number, most significant first. -/
def hexDigits (value : ℕ) : List UInt8 :=
  (Nat.digits 16 value).reverse.map hexChar

/-- `f"{value:08x}"`. -/
def hex08 (value : ℕ) : List UInt8 :=
  List.replicate (8 - (hexDigits value).length) 48 ++ hexDigits value

def newcHeader (ino : ℕ) (entry : ToolEntry) : Except UnicodeEncodeError (List UInt8) := do
  let name ← encodeUtf8 entry.name
  return ascii "070701"
    ++ [ino, entry.mode, entry.uid, entry.gid, 1, 0, entry.data.length, 0, 0, 0, 0,
        name.length + 1, 0].flatMap hex08

/-- Fill up with zeros to a multiple of four. -/
def padded (output : List UInt8) : List UInt8 :=
  output ++ List.replicate (align4 output.length - output.length) 0

/-- One round of the loop in `archive_bytes`. -/
def appendRecord (output : List UInt8) (numbered : ToolEntry × ℕ) :
    Except UnicodeEncodeError (List UInt8) := do
  let name ← encodeUtf8 numbered.1.name
  let header ← newcHeader numbered.2 numbered.1
  return padded (padded (output ++ header ++ (name ++ [0])) ++ numbered.1.data)

def trailerEntry : ToolEntry := ⟨codePoints "TRAILER!!!", 0, 0, 0, []⟩

/-- The entries of a map in the order of their names. -/
def orderedEntries (entries : List ToolEntry) : List ToolEntry :=
  entries.mergeSort (fun left right =>
    decide (left.name.map CodePoint.value ≤ right.name.map CodePoint.value))

def archiveBytes (entries : List ToolEntry) : Except UnicodeEncodeError (List UInt8) :=
  ((orderedEntries entries ++ [trailerEntry]).zipIdx 1).foldlM appendRecord []

/-! ## Records on their own

The output always ends at a multiple of four when a record begins, so a record
whose name encodes is the same bytes wherever it stands. -/

/-- The header of an entry whose name encodes. -/
def headerBytes (ino : ℕ) (entry : ToolEntry) : List UInt8 :=
  ascii "070701"
    ++ [ino, entry.mode, entry.uid, entry.gid, 1, 0, entry.data.length, 0, 0, 0, 0,
        (utf8 entry.name).length + 1, 0].flatMap hex08

/-- The header and the terminated name of a record. -/
def recordFront (ino : ℕ) (entry : ToolEntry) : List UInt8 :=
  headerBytes ino entry ++ (utf8 entry.name ++ [0])

def recordBytes (numbered : ToolEntry × ℕ) : List UInt8 :=
  padded (padded (recordFront numbered.2 numbered.1) ++ numbered.1.data)

theorem align4_add {value : ℕ} (hvalue : value % 4 = 0) (extra : ℕ) :
    align4 (value + extra) = value + align4 extra := by
  unfold align4
  omega

theorem length_padded (output : List UInt8) : (padded output).length = align4 output.length := by
  have hle := le_align4 output.length
  rw [padded, List.length_append, List.length_replicate]
  omega

section

variable {output : List UInt8} (houtput : output.length % 4 = 0)
include houtput

theorem padded_append (extra : List UInt8) : padded (output ++ extra) = output ++ padded extra := by
  rw [padded, padded, List.length_append, align4_add houtput, List.append_assoc,
    Nat.add_sub_add_left]

theorem appendRecord_eq (numbered : ToolEntry × ℕ) :
    appendRecord output numbered = if Encodes numbered.1.name
      then .ok (output ++ recordBytes numbered) else .error ⟨numbered.1.name⟩ := by
  rw [appendRecord, newcHeader, encodeUtf8]
  split_ifs
  · change Except.ok (padded (padded (output ++ headerBytes numbered.2 numbered.1
      ++ (utf8 numbered.1.name ++ [0])) ++ numbered.1.data)) = _
    rw [List.append_assoc, padded_append houtput, List.append_assoc, padded_append houtput]
    rfl
  · rfl

omit houtput in
theorem length_recordBytes_mod (numbered : ToolEntry × ℕ) :
    (recordBytes numbered).length % 4 = 0 := by
  rw [recordBytes, length_padded]
  unfold align4
  omega

/-- The loop ends unless a name has no encoding, and appends the records. -/
theorem foldlM_appendRecord_eq_ok {records : List (ToolEntry × ℕ)} {image : List UInt8} :
    records.foldlM appendRecord output = .ok image
      ↔ (∀ record ∈ records, Encodes record.1.name)
        ∧ output ++ records.flatMap recordBytes = image := by
  induction records generalizing output with
  | nil => simp [pure, Except.pure]
  | cons first rest ih =>
    have hnext : (output ++ recordBytes first).length % 4 = 0 := by
      have hrecord := length_recordBytes_mod first
      rw [List.length_append]
      omega
    rw [List.foldlM_cons, appendRecord_eq houtput, List.forall_mem_cons, List.flatMap_cons,
      ← List.append_assoc]
    split_ifs with hfirst
    · rw [and_iff_right hfirst]
      exact ih hnext
    · refine iff_of_false ?_ (fun hall => hfirst hall.1.1)
      rintro ⟨⟩

end

theorem le_length_flatMap {α : Type} {shortest : ℕ} {written : α → List UInt8}
    (hwritten : ∀ value, shortest ≤ (written value).length) (values : List α) :
    values.length * shortest ≤ (values.flatMap written).length := by
  rw [List.length_flatMap, ← List.length_map (f := fun value => (written value).length),
    ← smul_eq_mul]
  exact List.card_nsmul_le_sum _ _ (List.forall_mem_map.mpr fun value _ => hwritten value)

theorem length_flatMap_recordBytes_mod (records : List (ToolEntry × ℕ)) :
    (records.flatMap recordBytes).length % 4 = 0 := by
  induction records with
  | nil => rfl
  | cons first rest ih =>
    have hrecord := length_recordBytes_mod first
    rw [List.flatMap_cons, List.length_append]
    omega

/-! ## Header fields -/

theorem hexDigit_hexChar {digit : ℕ} (hdigit : digit < 16) :
    hexDigit (hexChar digit) = some digit := by
  interval_cases digit <;> decide

/-- Digits that stand for a number of a field read back as that number. -/
theorem hexField_digits {digits : List ℕ} (hdigits : ∀ digit ∈ digits, digit < 16)
    (hfits : Nat.ofDigits 16 digits < sizeBound) :
    hexField (digits.reverse.map hexChar) = some (Nat.ofDigits 16 digits) := by
  change (digits.reverse.map hexChar).foldlM hexStep 0 = _
  induction digits with
  | nil => rfl
  | cons first rest ih =>
    obtain ⟨hfirst, hrest⟩ := List.forall_mem_cons.mp hdigits
    rw [Nat.ofDigits_cons] at hfits ⊢
    have hsmall : ¬ (sizeMax - first) / 16 < Nat.ofDigits 16 rest := by
      unfold sizeBound at hfits
      unfold sizeMax
      omega
    rw [List.reverse_cons, List.map_append, List.foldlM_append, ih hrest (by omega),
      List.map_singleton]
    simp [hexStep, hexDigit_hexChar hfirst, hsmall, Nat.add_comm, Nat.mul_comm]

theorem hex08_eq_map (value : ℕ) :
    hex08 value = (Nat.digits 16 value
      ++ List.replicate (8 - (hexDigits value).length) 0).reverse.map hexChar := by
  rw [hex08, List.reverse_append, List.reverse_replicate, List.map_append, List.map_replicate]
  rfl

theorem hex08_digit_lt {value digit : ℕ} (hdigit : digit ∈
    Nat.digits 16 value ++ List.replicate (8 - (hexDigits value).length) 0) : digit < 16 := by
  cases List.mem_append.mp hdigit with
  | inl hmem => exact Nat.digits_lt_base (by omega) hmem
  | inr hzero => simp [List.eq_of_mem_replicate hzero]

theorem zero_not_mem_hex08 (value : ℕ) : 0 ∉ hex08 value := by
  rw [hex08_eq_map, List.mem_map]
  rintro ⟨digit, hdigit, hzero⟩
  have hsmall := hex08_digit_lt (List.mem_reverse.mp hdigit)
  interval_cases digit <;> exact absurd hzero (by decide)

theorem eight_le_length_hex08 (value : ℕ) : 8 ≤ (hex08 value).length := by
  rw [hex08, List.length_append, List.length_replicate]
  omega

theorem length_hex08 {value : ℕ} (hvalue : value < 2 ^ 32) : (hex08 value).length = 8 := by
  have hdigits : (Nat.digits 16 value).length ≤ 8 := by
    rw [Nat.digits_length_le_iff (by omega)]
    exact lt_of_lt_of_le hvalue (by norm_num)
  rw [hex08, List.length_append, List.length_replicate, hexDigits, List.length_map,
    List.length_reverse]
  omega

theorem hexField_hex08 {value : ℕ} (hvalue : value < 2 ^ 32) :
    hexField (hex08 value) = some value := by
  have hresult : Nat.ofDigits 16 (Nat.digits 16 value
      ++ List.replicate (8 - (hexDigits value).length) 0) = value := by
    rw [Nat.ofDigits_append_replicate_zero, Nat.ofDigits_digits]
  rw [hex08_eq_map, hexField_digits (fun _ => hex08_digit_lt), hresult]
  exact hresult.trans_lt (hvalue.trans_le (by unfold sizeBound; norm_num))

/-- The field that begins after `lead`. -/
theorem headerField_hex08 {lead rest : List UInt8} {position value : ℕ}
    (hlead : lead.length = position) (hvalue : value < 2 ^ 32) :
    headerField (lead ++ (hex08 value ++ rest)) position = some value := by
  rw [headerField, List.drop_left' hlead, List.take_left' (length_hex08 hvalue),
    hexField_hex08 hvalue]

/-- What the header of an entry says. -/
def headerOf (entry : ToolEntry) : NewcHeader :=
  ⟨entry.mode, entry.uid, entry.gid, entry.data.length, (utf8 entry.name).length + 1⟩

/-- The numbers of an entry fit the eight digits of a field. -/
structure FieldsFit (entry : ToolEntry) : Prop where
  mode : entry.mode < 2 ^ 32
  uid : entry.uid < 2 ^ 32
  gid : entry.gid < 2 ^ 32
  data : entry.data.length < 2 ^ 32

section Header

variable {ino : ℕ} {entry : ToolEntry}

theorem length_magic : (ascii "070701").length = 6 := by decide

theorem length_flatMap_hex08 {numbers : List ℕ} (hnumbers : ∀ number ∈ numbers, number < 2 ^ 32) :
    (numbers.flatMap hex08).length = 8 * numbers.length := by
  rw [List.length_flatMap, List.map_congr_left fun number hnumber =>
    length_hex08 (hnumbers number hnumber), List.map_const', List.sum_replicate, smul_eq_mul,
    Nat.mul_comm]

/-- A number of a header is where the reader looks for it. -/
theorem headerField_flatMap {before after : List ℕ} {value : ℕ}
    (hnumbers : ∀ number ∈ before ++ value :: after, number < 2 ^ 32) (rest : List UInt8) :
    headerField (ascii "070701" ++ (before ++ value :: after).flatMap hex08 ++ rest)
      (6 + 8 * before.length) = some value := by
  obtain ⟨hbefore, hothers⟩ := List.forall_mem_append.mp hnumbers
  have hlead : (ascii "070701" ++ before.flatMap hex08).length = 6 + 8 * before.length := by
    rw [List.length_append, length_magic, length_flatMap_hex08 hbefore]
  simpa only [List.flatMap_append, List.flatMap_cons, List.append_assoc] using
    headerField_hex08 hlead (List.forall_mem_cons.mp hothers).1

theorem header_le_length_headerBytes (ino : ℕ) (entry : ToolEntry) :
    cpioHeaderSize ≤ (headerBytes ino entry).length := by
  rw [headerBytes, List.length_append, length_magic]
  refine le_trans ?_ (Nat.add_le_add_left (le_length_flatMap eight_le_length_hex08 _) 6)
  exact le_refl cpioHeaderSize

theorem zero_not_mem_headerBytes (ino : ℕ) (entry : ToolEntry) : 0 ∉ headerBytes ino entry := by
  rw [headerBytes, List.mem_append, List.mem_flatMap]
  rintro (hmagic | ⟨number, -, hdigit⟩)
  · exact absurd hmagic (by decide)
  · exact zero_not_mem_hex08 number hdigit

variable (hino : ino < 2 ^ 32) (hfits : FieldsFit entry)
  (hname : (utf8 entry.name).length + 1 < 2 ^ 32)

include hino hfits hname

theorem header_numbers_lt : ∀ number ∈ [ino, entry.mode, entry.uid, entry.gid, 1, 0,
    entry.data.length, 0, 0, 0, 0, (utf8 entry.name).length + 1, 0], number < 2 ^ 32 := by
  simpa using ⟨hino, hfits.mode, hfits.uid, hfits.gid, hfits.data, hname⟩

theorem length_headerBytes : (headerBytes ino entry).length = cpioHeaderSize := by
  rw [headerBytes, List.length_append, length_magic,
    length_flatMap_hex08 (header_numbers_lt hino hfits hname)]
  rfl

theorem readHeader_headerBytes (rest : List UInt8) :
    readHeader (headerBytes ino entry ++ rest) = some (headerOf entry) := by
  have hnumbers := header_numbers_lt hino hfits hname
  have hmagic : (headerBytes ino entry ++ rest).take 6 = ascii "070701" := by
    rw [headerBytes, List.append_assoc, List.take_left' length_magic]
  have hmode : headerField (headerBytes ino entry ++ rest) 14 = some entry.mode :=
    @headerField_flatMap [ino] _ _ hnumbers rest
  have huid : headerField (headerBytes ino entry ++ rest) 22 = some entry.uid :=
    @headerField_flatMap [ino, entry.mode] _ _ hnumbers rest
  have hgid : headerField (headerBytes ino entry ++ rest) 30 = some entry.gid :=
    @headerField_flatMap [ino, entry.mode, entry.uid] _ _ hnumbers rest
  have hdata : headerField (headerBytes ino entry ++ rest) 54 = some entry.data.length :=
    @headerField_flatMap [ino, entry.mode, entry.uid, entry.gid, 1, 0] _ _ hnumbers rest
  have hsize : headerField (headerBytes ino entry ++ rest) 94
      = some ((utf8 entry.name).length + 1) :=
    @headerField_flatMap [ino, entry.mode, entry.uid, entry.gid, 1, 0, entry.data.length,
      0, 0, 0, 0] _ _ hnumbers rest
  simp [readHeader, hmagic, hmode, huid, hgid, hdata, hsize, guard, headerOf]

end Header

/-! ## Reading a record back -/

/-- The zeros between two parts of a record. -/
def padding (output : List UInt8) : List UInt8 :=
  List.replicate (align4 output.length - output.length) 0

theorem recordBytes_eq (ino : ℕ) (entry : ToolEntry) :
    recordBytes (entry, ino)
      = padded (recordFront ino entry) ++ (entry.data
        ++ padding (padded (recordFront ino entry) ++ entry.data)) := by
  rw [recordBytes, padded, List.append_assoc]
  rfl

theorem recordBytes_name (ino : ℕ) (entry : ToolEntry) :
    ∃ rest, recordBytes (entry, ino) = headerBytes ino entry ++ (utf8 entry.name ++ rest) := by
  rw [recordBytes_eq, padded, recordFront]
  simp only [List.append_assoc]
  exact ⟨_, rfl⟩

theorem length_recordBytes (ino : ℕ) (entry : ToolEntry) :
    (recordBytes (entry, ino)).length
      = align4 (align4 (recordFront ino entry).length + entry.data.length) := by
  rw [recordBytes, length_padded, List.length_append, length_padded]

theorem nameBytes_between {lead middle rest : List UInt8} {position count : ℕ}
    (hposition : lead.length = position) (hcount : middle.length = count) :
    nameBytes (lead ++ (middle ++ rest)) (position, count) = middle := by
  rw [nameBytes, List.drop_left' hposition, List.take_left' hcount]

variable {entry : ToolEntry} {entries : List ToolEntry}

/-- A record with a name that fits reads back, whatever surrounds it. -/
theorem placed_recordBytes {ino : ℕ} (hino : ino < 2 ^ 32)
    (hfits : FieldsFit entry) (hname : (utf8 entry.name).length + 1 < 2 ^ 32)
    {before : List UInt8} (hbefore : before.length % 4 = 0) (after : List UInt8) :
    ∃ record, placed (before ++ (recordBytes (entry, ino) ++ after)) before.length = some record
      ∧ record.header = headerOf entry
      ∧ nameBytes (before ++ (recordBytes (entry, ino) ++ after))
          (record.nameOffset, record.header.nameSize) = utf8 entry.name ++ [0]
      ∧ nameBytes (before ++ (recordBytes (entry, ino) ++ after))
          (record.dataOffset, record.header.fileSize) = entry.data
      ∧ align4 (record.dataOffset + record.header.fileSize)
        = before.length + (recordBytes (entry, ino)).length := by
  have hheader := length_headerBytes hino hfits hname
  have hnameLength : (utf8 entry.name ++ [0]).length = (headerOf entry).nameSize := by
    rw [List.length_append]
    rfl
  have hfront : (recordFront ino entry).length
      = cpioHeaderSize + (headerOf entry).nameSize := by
    rw [recordFront, List.length_append, hheader, hnameLength]
  have hoffset : align4 (before.length + cpioHeaderSize + (headerOf entry).nameSize)
      = before.length + align4 (recordFront ino entry).length := by
    rw [hfront, Nat.add_assoc, align4_add hbefore]
  have hlength := length_recordBytes ino entry
  have hnext := align4_add hbefore (align4 (recordFront ino entry).length + entry.data.length)
  have hafterName := le_align4 (recordFront ino entry).length
  have hafterData := le_align4 (align4 (recordFront ino entry).length + entry.data.length)
  have hnameAt : nameBytes (before ++ (recordBytes (entry, ino) ++ after))
      (before.length + cpioHeaderSize, (headerOf entry).nameSize) = utf8 entry.name ++ [0] := by
    have hlead : (before ++ headerBytes ino entry).length = before.length + cpioHeaderSize := by
      rw [List.length_append, hheader]
    rw [recordBytes_eq, padded, recordFront]
    simpa only [List.append_assoc] using nameBytes_between hlead hnameLength
  have hdataAt : nameBytes (before ++ (recordBytes (entry, ino) ++ after))
      (before.length + align4 (recordFront ino entry).length, entry.data.length)
        = entry.data := by
    have hlead : (before ++ padded (recordFront ino entry)).length
        = before.length + align4 (recordFront ino entry).length := by
      rw [List.length_append, length_padded]
    rw [recordBytes_eq]
    simpa only [List.append_assoc] using nameBytes_between hlead rfl
  have hread : readHeader ((before ++ (recordBytes (entry, ino) ++ after)).drop before.length)
      = some (headerOf entry) := by
    rw [List.drop_left, recordBytes_eq, padded, recordFront]
    simpa only [List.append_assoc] using readHeader_headerBytes hino hfits hname _
  refine ⟨⟨headerOf entry, before.length + cpioHeaderSize,
    before.length + align4 (recordFront ino entry).length⟩, ?_, rfl, hnameAt, hdataAt, ?_⟩
  · rw [placed, hread]
    dsimp only
    rw [hoffset, if_pos]
    refine ⟨?_, ?_, ?_⟩
    · rw [List.length_append, List.length_append]
      omega
    · rw [hnameAt, List.getLast?_append]
      rfl
    · rw [List.length_append, List.length_append]
      dsimp only [headerOf]
      omega
  · dsimp only [headerOf]
    rw [hlength, Nat.add_assoc, hnext]

/-! ## Names on both sides -/

variable {name : List CodePoint}

/-- The components of a clean name. -/
theorem cleanName_fixpoint (hclean : cleanName name = .ok name) (hroot : name ≠ rootName) :
    ∃ parts, name = [.scalar '/'].intercalate parts ∧ parts ≠ []
      ∧ ∀ part ∈ parts, part ≠ [] ∧ .scalar '/' ∉ part ∧ part ≠ rootName
        ∧ part ≠ parentName := by
  simp only [cleanName, ite_error_eq_ok] at hclean
  obtain ⟨-, -, hparent, hresult⟩ := hclean
  split at hresult
  · exact absurd (Except.ok.inj hresult).symm hroot
  · rename_i hnonempty
    refine ⟨_, (Except.ok.inj hresult).symm, hnonempty, ?_⟩
    intro part hpart
    have hkept := List.mem_filter.mp hpart
    have hnames : part ≠ [] ∧ part ≠ rootName := by simpa using hkept.2
    exact ⟨hnames.1, not_mem_of_mem_splitOn hkept.1, hnames.2, fun heq => hparent (heq ▸ hpart)⟩

theorem utf8_slash : utf8 [.scalar '/'] = [slash] := by decide

theorem zero_not_mem_cleanName (hclean : cleanName name = .ok name) :
    0 ∉ utf8 name := by
  simp only [cleanName, ite_error_eq_ok] at hclean
  exact not_mem_utf8 (by decide) (by decide : Char.toNat '\x00' = (0 : UInt8).toNat)
    (fun hzero => hclean.1 (.inr hzero))

/-- The bytes of a clean name are components joined by separators. -/
theorem cleanName_bytes (hclean : cleanName name = .ok name)
    (hroot : name ≠ rootName) (hname : Encodes name) :
    ∃ parts, utf8 name = [slash].intercalate parts ∧ parts ≠ [] ∧ NameStack parts := by
  obtain ⟨parts, rfl, hnonempty, hparts⟩ := cleanName_fixpoint hclean hroot
  refine ⟨parts.map utf8, ?_, by simpa using hnonempty, ?_⟩
  · rw [← utf8_slash, utf8_intercalate]
  · intro bytes hbytes
    obtain ⟨part, hpart, rfl⟩ := List.mem_map.mp hbytes
    obtain ⟨hempty, hslash, hdot, hparent⟩ := hparts part hpart
    have hencodes : Encodes part :=
      fun point hpoint => hname point (mem_intercalate_of_mem hpart hpoint)
    refine ⟨⟨fun heq => hempty (utf8_inj hencodes (by decide) heq), ?_⟩, ?_, ?_⟩
    · exact not_mem_utf8 (by decide) (by decide : Char.toNat '/' = slash.toNat) hslash
    · exact fun heq => hdot (utf8_inj hencodes (by decide) heq)
    · exact fun heq => hparent (utf8_inj hencodes (by decide) heq)

/-- A component passes the scan unless it is `..` where components start. -/
theorem nameRejected_component {part tail : List UInt8} (hempty : part ≠ [])
    (hslash : slash ∉ part) (hzero : 0 ∉ part)
    (htail : tail = [] ∨ tail.head? = some slash) {start : Bool}
    (hparent : start = true → part ≠ [dot, dot]) :
    nameRejected start (part ++ tail) = nameRejected false tail := by
  induction part generalizing start with
  | nil => exact absurd rfl hempty
  | cons byte rest ih =>
    simp only [List.mem_cons, not_or] at hslash hzero
    have hbyte : (byte == 0) = false := by simpa using Ne.symm hzero.1
    have hseparator : (byte == slash) = false := by simpa using Ne.symm hslash.1
    have hsecond : (byte == dot && (rest ++ tail).head? == some dot && start
        && ((rest ++ tail).tail.isEmpty || (rest ++ tail).tail.head? == some slash)) = false := by
      by_contra hrejected
      rw [Bool.not_eq_false] at hrejected
      simp only [Bool.and_eq_true, beq_iff_eq] at hrejected
      obtain ⟨⟨⟨hdot, hnext⟩, hstart⟩, hends⟩ := hrejected
      refine hparent hstart ?_
      cases rest with
      | nil =>
        cases htail with
        | inl hnil => simp [hnil] at hnext
        | inr hhead =>
          rw [List.nil_append, hhead] at hnext
          exact absurd hnext (by decide)
      | cons second rest =>
        rw [List.cons_append, List.head?_cons, Option.some.injEq] at hnext
        cases rest with
        | nil => rw [hdot, hnext]
        | cons third rest =>
          have hthird : third = slash := by simpa using hends
          exact absurd (by simp [hthird]) hslash.2
    rw [List.cons_append, nameRejected, hbyte, hseparator, hsecond]
    simp only [Bool.false_or, Bool.false_and]
    cases rest with
    | nil => rfl
    | cons second rest =>
      exact ih (by simp) hslash.2 hzero.2 (fun hstart => absurd hstart (by simp))

theorem head?_intercalate_ne {parts : List (List UInt8)} (hparts : NameStack parts) :
    ([slash].intercalate parts).head? ≠ some slash := by
  match parts with
  | [] => simp
  | first :: rest =>
    obtain ⟨⟨hempty, hslash⟩, -⟩ := hparts first (by simp)
    obtain ⟨byte, tail, rfl⟩ := List.exists_cons_of_ne_nil hempty
    simp only [List.mem_cons, not_or] at hslash
    cases rest <;> simpa using Ne.symm hslash.1

theorem nameRejected_intercalate {parts : List (List UInt8)} (hparts : NameStack parts)
    (hnonempty : parts ≠ []) (hzero : 0 ∉ [slash].intercalate parts) :
    nameRejected true ([slash].intercalate parts) = false := by
  induction parts with
  | nil => exact absurd rfl hnonempty
  | cons first rest ih =>
    obtain ⟨⟨hempty, hslash⟩, -, hparent⟩ := hparts first (by simp)
    cases rest with
    | nil =>
      rw [List.intercalate_singleton] at hzero ⊢
      rw [← List.append_nil first,
        nameRejected_component hempty hslash hzero (Or.inl rfl) (fun _ => hparent)]
      rfl
    | cons second rest =>
      have htail : NameStack (second :: rest) := fun part hpart => hparts part (by simp [hpart])
      have hhead := head?_intercalate_ne htail
      rw [List.intercalate_cons_cons, List.append_assoc, List.singleton_append] at hzero ⊢
      obtain ⟨hfirst, hlater⟩ := not_or.mp (mt List.mem_append.mpr hzero)
      rw [nameRejected_component hempty hslash hfirst (Or.inr rfl) (fun _ => hparent),
        nameRejected, beq_self_eq_true, ih htail (by simp) (mt (List.mem_cons_of_mem _) hlater)]
      simp [hhead, show (slash == 0) = false by decide]

theorem dropCurrent_eq_self {name : List UInt8} (hname : ∀ rest, name ≠ dot :: slash :: rest) :
    dropCurrent name = name := by
  match name with
  | [] => rfl
  | [byte] => rfl
  | first :: second :: rest =>
    rw [dropCurrent, if_neg]
    rintro ⟨rfl, rfl⟩
    exact hname rest rfl

/-- A clean name is stored under its own path. -/
theorem canonicalPath_cleanName (hclean : cleanName name = .ok name)
    (hroot : name ≠ rootName) (hname : Encodes name) :
    canonicalPath (utf8 name) = some (slash :: utf8 name) := by
  have hzero := zero_not_mem_cleanName hclean
  obtain ⟨parts, hbytes, hnonempty, hparts⟩ := cleanName_bytes hclean hroot hname
  have hcomponents : components slash (utf8 name) = parts := by
    rw [hbytes]
    exact components_intercalate (fun part hpart => (hparts part hpart).1)
  have hcurrent : dropCurrent (utf8 name) = utf8 name := by
    refine dropCurrent_eq_self (fun rest heq => ?_)
    have hsplit := components_append_separator slash [dot] rest
    rw [List.singleton_append, ← heq, hcomponents,
      components_of_component ⟨by simp, by decide⟩] at hsplit
    exact (hparts [dot] (by simp [hsplit])).2.1 rfl
  have hleading : (utf8 name).dropWhile (fun byte => byte == slash) = utf8 name := by
    cases hcase : utf8 name with
    | nil => rfl
    | cons byte rest =>
      rw [List.dropWhile_cons_of_neg]
      rw [beq_iff_eq]
      rintro rfl
      exact head?_intercalate_ne hparts (by rw [← hbytes, hcase]; rfl)
  have hother : utf8 name ≠ [] ∧ utf8 name ≠ [dot] := by
    refine ⟨fun heq => hnonempty ?_, fun heq => hroot (utf8_inj hname (by decide) heq)⟩
    rw [← hcomponents, heq, components_nil]
  have haccepted : nameRejected true (utf8 name) = false := by
    rw [hbytes] at hzero ⊢
    exact nameRejected_intercalate hparts hnonempty hzero
  rw [canonicalPath, hcurrent, hleading, if_neg (by tauto), if_neg (by simp [haccepted])]

/-! ## Reading an archive back -/

/-- The entry that the kernel should hold for an entry of the tool. -/
def archiveEntry (entry : ToolEntry) : InitrdEntry :=
  entryOf (slash :: utf8 entry.name) entry.data (headerOf entry)

/-- The entries of a map other than the root. -/
def withoutRoot (entries : List ToolEntry) : List ToolEntry :=
  entries.filter (fun entry => entry.name ≠ rootName)

/-- An entry that the tool accepts: a clean name, the mode of a file or a
directory, and numbers of 32 bits. -/
structure PackableEntry (entry : ToolEntry) : Prop where
  clean : cleanName entry.name = .ok entry.name
  kind : entry.name ≠ rootName → entry.mode &&& fileTypeMask = regularFile
    ∨ entry.mode &&& fileTypeMask = directoryFile
  fits : FieldsFit entry

/-- The name has an encoding and does not look like the end of the archive, and
its length fits its field. -/
def NameStorable (entry : ToolEntry) : Prop :=
  Encodes entry.name ∧ entry.name ≠ trailerEntry.name ∧ (utf8 entry.name).length + 1 < 2 ^ 32

instance (entry : ToolEntry) : Decidable (NameStorable entry) :=
  inferInstanceAs (Decidable (_ ∧ _ ∧ _))

theorem utf8_eq_iff {other : List CodePoint} (hname : Encodes name) (hother : Encodes other) :
    utf8 name = utf8 other ↔ name = other :=
  ⟨utf8_inj hname hother, congrArg utf8⟩

/-- What the reader makes of one record. -/
theorem readRecord_recordBytes {ino : ℕ} (hino : ino < 2 ^ 32)
    (hfits : FieldsFit entry) (hencodes : Encodes entry.name) (hzero : 0 ∉ utf8 entry.name)
    (hname : (utf8 entry.name).length + 1 < 2 ^ 32)
    {before : List UInt8} (hbefore : before.length % 4 = 0) (after : List UInt8) :
    readRecord (before ++ (recordBytes (entry, ino) ++ after)) before.length
      = some (if entry.name = trailerEntry.name then .trailer
          else if entry.name = rootName then
            .skipped (before.length + (recordBytes (entry, ino)).length)
          else .entry (utf8 entry.name) entry.data (headerOf entry)
            (before.length + (recordBytes (entry, ino)).length)) := by
  obtain ⟨record, hplaced, hheader, hnameAt, hdataAt, hnext⟩ :=
    placed_recordBytes hino hfits hname hbefore after
  have htrailer : utf8 entry.name = ascii "TRAILER!!!" ↔ entry.name = trailerEntry.name := by
    rw [show ascii "TRAILER!!!" = utf8 trailerEntry.name by decide]
    exact utf8_eq_iff hencodes (by decide)
  have hroot : utf8 entry.name = ascii "." ↔ entry.name = rootName := by
    rw [show ascii "." = utf8 rootName by decide]
    exact utf8_eq_iff hencodes (by decide)
  rw [readRecord_eq, hplaced, Option.map_some, recordOf]
  rw [hnameAt, hdataAt, hnext, hheader, cString_append_zero hzero, List.dropLast_concat]
  simp only [htrailer, hroot]

theorem header_le_recordBytes (numbered : ToolEntry × ℕ) :
    cpioHeaderSize ≤ (recordBytes numbered).length := by
  obtain ⟨rest, hrecord⟩ := recordBytes_name numbered.2 numbered.1
  rw [hrecord, List.length_append]
  exact Nat.le_add_right_of_le (header_le_length_headerBytes numbered.2 numbered.1)

/-- A record of a storable entry is added to the table. -/
theorem addRecord_packable {initrd : FacetInitrd}
    (hentry : PackableEntry entry) (hencodes : Encodes entry.name) (hroot : entry.name ≠ rootName)
    (hroom : initrd.entries.length ≠ cpioMaxEntries)
    (hfresh : slash :: utf8 entry.name ∉ initrd.entries.map InitrdEntry.path) :
    ∃ grown, addRecord initrd (utf8 entry.name) entry.data (headerOf entry) = some grown
      ∧ grown.entries = initrd.entries ++ [archiveEntry entry] := by
  have hkind : ¬ ((headerOf entry).mode &&& fileTypeMask ≠ regularFile
      ∧ (headerOf entry).mode &&& fileTypeMask ≠ directoryFile) := by
    rintro ⟨hfile, hdirectory⟩
    cases hentry.kind hroot with
    | inl hkind => exact hfile hkind
    | inr hkind => exact hdirectory hkind
  have hentries := entries_addRecord initrd (utf8 entry.name) entry.data (headerOf entry)
  rw [if_neg hkind, if_neg hroom, canonicalPath_cleanName hentry.clean hroot hencodes,
    Option.bind_some, if_neg hfresh, Option.map_eq_some_iff] at hentries
  exact hentries

/-- The table can take these records: their names are new and there is room. -/
structure Admits (initrd : FacetInitrd) (records : List (ToolEntry × ℕ)) : Prop where
  packable : ∀ record ∈ records, PackableEntry record.1
  storable : ∀ record ∈ records, NameStorable record.1
  numbered : ∀ record ∈ records, record.2 < 2 ^ 32
  distinct : (records.map (fun record => record.1.name)).Nodup
  fresh : ∀ record ∈ records, record.1.name ≠ rootName →
    slash :: utf8 record.1.name ∉ initrd.entries.map InitrdEntry.path
  room : initrd.entries.length + (withoutRoot (records.map Prod.fst)).length ≤ cpioMaxEntries

theorem Admits.grown {initrd grown : FacetInitrd} {first : ToolEntry × ℕ}
    {rest : List (ToolEntry × ℕ)} (hadmits : Admits initrd (first :: rest))
    (hgrown : grown.entries = initrd.entries ++ (withoutRoot [first.1]).map archiveEntry) :
    Admits grown rest where
  packable record hrecord := hadmits.packable record (by simp [hrecord])
  storable record hrecord := hadmits.storable record (by simp [hrecord])
  numbered record hrecord := hadmits.numbered record (by simp [hrecord])
  distinct := (List.nodup_cons.mp hadmits.distinct).2
  fresh record hrecord hname hmem := by
    rw [hgrown, List.map_append, List.mem_append] at hmem
    cases hmem with
    | inl hold => exact hadmits.fresh record (by simp [hrecord]) hname hold
    | inr hnew =>
      obtain ⟨added, hadded, hpath⟩ := List.mem_map.mp hnew
      obtain ⟨entry, hentry, rfl⟩ := List.mem_map.mp hadded
      obtain rfl := List.mem_singleton.mp (List.mem_filter.mp hentry).1
      have hsame : first.1.name = record.1.name :=
        utf8_inj (hadmits.storable first (by simp)).1
          (hadmits.storable record (by simp [hrecord])).1 (List.cons.inj hpath).2
      exact (List.nodup_cons.mp hadmits.distinct).1
        (List.mem_map.mpr ⟨record, hrecord, hsame.symm⟩)
  room := by
    have hroom := hadmits.room
    rw [List.map_cons, withoutRoot, ← List.singleton_append, List.filter_append,
      List.length_append, ← Nat.add_assoc] at hroom
    rwa [hgrown, List.length_append, List.length_map]

theorem length_le_flatMap_recordBytes (records : List (ToolEntry × ℕ)) :
    records.length ≤ (records.flatMap recordBytes).length :=
  calc records.length ≤ records.length * cpioHeaderSize := Nat.le_mul_of_pos_right _ (by decide)
    _ ≤ (records.flatMap recordBytes).length := le_length_flatMap header_le_recordBytes records

/-- The loop passes over records that the table can take and adds their entries. -/
theorem readRecords_append {before after : List UInt8} {records : List (ToolEntry × ℕ)}
    {initrd : FacetInitrd} (hbefore : before.length % 4 = 0) (hadmits : Admits initrd records)
    (fuel : ℕ) :
    ∃ grown, readRecords (before ++ (records.flatMap recordBytes ++ after))
          (records.length + fuel) before.length initrd
        = readRecords (before ++ (records.flatMap recordBytes ++ after)) fuel
          (before.length + (records.flatMap recordBytes).length) grown
      ∧ grown.entries
        = initrd.entries ++ (withoutRoot (records.map Prod.fst)).map archiveEntry := by
  induction records generalizing before initrd with
  | nil => exact ⟨initrd, by simp, by simp [withoutRoot]⟩
  | cons first rest ih =>
    obtain ⟨entry, ino⟩ := first
    have hpackable : PackableEntry entry := hadmits.packable (entry, ino) (by simp)
    obtain ⟨hencodes, htrailer, hname⟩ : NameStorable entry :=
      hadmits.storable (entry, ino) (by simp)
    have hino : ino < 2 ^ 32 := hadmits.numbered (entry, ino) (by simp)
    have hzero := zero_not_mem_cleanName hpackable.clean
    have hheader := header_le_recordBytes (entry, ino)
    have haligned : (before ++ recordBytes (entry, ino)).length % 4 = 0 := by
      have hrecord := length_recordBytes_mod (entry, ino)
      rw [List.length_append]
      omega
    have himage : before ++ (((entry, ino) :: rest).flatMap recordBytes ++ after)
        = before ++ recordBytes (entry, ino) ++ (rest.flatMap recordBytes ++ after) := by
      simp only [List.flatMap_cons, List.append_assoc]
    have hread := readRecord_recordBytes hino hpackable.fits hencodes hzero hname hbefore
      (rest.flatMap recordBytes ++ after)
    rw [← List.append_assoc] at hread
    have hcontinue : ¬ (before ++ recordBytes (entry, ino)
        ++ (rest.flatMap recordBytes ++ after)).length < before.length + cpioHeaderSize := by
      simp only [List.length_append]
      omega
    rw [himage, List.length_cons, Nat.add_right_comm, readRecords_succ, if_neg hcontinue, hread,
      if_neg htrailer, List.flatMap_cons, List.length_append, ← Nat.add_assoc,
      ← List.length_append]
    by_cases hroot : entry.name = rootName
    · rw [if_pos hroot]
      obtain ⟨grown, hrun, hgrown⟩ := @ih _ initrd haligned
        (hadmits.grown (by simp [withoutRoot, hroot]))
      refine ⟨grown, hrun, ?_⟩
      rw [hgrown]
      simp [withoutRoot, hroot]
    · rw [if_neg hroot]
      have hroom : initrd.entries.length ≠ cpioMaxEntries := by
        have hall := hadmits.room
        simp only [withoutRoot, List.map_cons, List.filter_cons, hroot, ne_eq,
          not_false_eq_true, decide_true, if_true, List.length_cons] at hall
        omega
      obtain ⟨added, hadd, hentries⟩ := addRecord_packable hpackable hencodes hroot hroom
        (hadmits.fresh (entry, ino) (by simp) hroot)
      obtain ⟨grown, hrun, hgrown⟩ := @ih _ added haligned
        (hadmits.grown (by simp [hentries, withoutRoot, hroot]))
      refine ⟨grown, ?_, ?_⟩
      · dsimp only
        rw [hadd, Option.bind_some]
        exact hrun
      · rw [hgrown, hentries]
        simp [withoutRoot, hroot]

/-! ## Archives that load -/

/-- A map that the tool can hold: at most 1023 entries besides the root. -/
structure Packable (entries : List ToolEntry) : Prop where
  packable : ∀ entry ∈ entries, PackableEntry entry
  distinct : (entries.map ToolEntry.name).Nodup
  few : (withoutRoot entries).length ≤ 1023

/-- The tool writes an archive of the map, and the kernel accepts it and holds
the root and exactly the other entries, each once. -/
def Loads (entries : List ToolEntry) : Prop :=
  ∃ image initrd, archiveBytes entries = .ok image ∧ facetInitrdCreate image = some initrd
    ∧ initrd.entries.Perm (rootEntry :: (withoutRoot entries).map archiveEntry)

theorem orderedEntries_perm (entries : List ToolEntry) : (orderedEntries entries).Perm entries :=
  List.mergeSort_perm entries _

/-- Only one entry of a map can be the root. -/
theorem length_le_of_packable (hentries : Packable entries) :
    entries.length ≤ 1024 := by
  have hroots := List.nodup_iff_count_le_one.mp hentries.distinct rootName
  rw [List.count_eq_countP, List.countP_map] at hroots
  have hfew := hentries.few
  rw [withoutRoot, ← List.countP_eq_length_filter] at hfew
  have hsplit := List.length_eq_countP_add_countP (fun entry => decide (entry.name ≠ rootName))
    (l := entries)
  have hroot : (fun entry : ToolEntry => decide ¬decide (entry.name ≠ rootName) = true)
      = (fun name => name == rootName) ∘ ToolEntry.name := by
    funext entry
    simp [Function.comp, Bool.beq_eq_decide_eq]
  rw [hroot] at hsplit
  omega

/-- A name that is too long for its field makes the record unreadable: up to the end of the
real name there is no zero byte, and that is further than the reader looks. -/
theorem placed_longName {ino : ℕ} (hzero : 0 ∉ utf8 entry.name)
    (hname : 2 ^ 32 ≤ (utf8 entry.name).length + 1) (before after : List UInt8) :
    placed (before ++ (recordBytes (entry, ino) ++ after)) before.length = none := by
  rw [placed, List.drop_left]
  cases hheader : readHeader (recordBytes (entry, ino) ++ after) with
  | none => rfl
  | some header =>
    have hsize := (sizes_lt hheader).2
    have hlength := header_le_length_headerBytes ino entry
    obtain ⟨rest, hrecord⟩ := recordBytes_name ino entry
    dsimp only
    rw [if_neg]
    rintro ⟨-, hlast, -⟩
    rw [nameBytes, ← List.drop_drop, List.drop_left, hrecord, ← List.append_assoc,
      List.append_assoc, List.drop_append_of_le_length (by rw [List.length_append]; omega),
      List.take_append_of_le_length (by rw [List.length_drop, List.length_append]; omega)] at hlast
    have hmem := List.mem_of_mem_drop (List.mem_of_mem_take (List.mem_of_getLast? hlast))
    cases List.mem_append.mp hmem with
    | inl hdigit => exact zero_not_mem_headerBytes ino entry hdigit
    | inr hbyte => exact hzero hbyte

theorem utf8_name_ne_nil (hentry : PackableEntry entry) (hencodes : Encodes entry.name) :
    utf8 entry.name ≠ [] := by
  intro hempty
  have hname : entry.name = [] := utf8_inj hencodes (by decide) hempty
  have hclean := hentry.clean
  rw [hname, cleanName, if_pos (Or.inl rfl)] at hclean
  contradiction

section Split

variable {goods : List ToolEntry} (hentries : Packable entries)
  (hgoods : goods <+: orderedEntries entries) (hstorable : ∀ entry ∈ goods, NameStorable entry)

include hentries hgoods

theorem length_goods_le : goods.length ≤ 1024 :=
  calc goods.length ≤ (orderedEntries entries).length := hgoods.length_le
    _ = entries.length := (orderedEntries_perm entries).length_eq
    _ ≤ 1024 := length_le_of_packable hentries

theorem packable_of_mem_goods (hentry : entry ∈ goods) :
    PackableEntry entry :=
  hentries.packable entry ((orderedEntries_perm entries).mem_iff.mp (hgoods.subset hentry))

include hstorable

/-- The fresh table can take the first records of the archive. -/
theorem admits_goods : Admits FacetInitrd.rootOnly (goods.zipIdx 1) where
  packable record hrecord :=
    packable_of_mem_goods hentries hgoods (List.fst_mem_of_mem_zipIdx hrecord)
  storable record hrecord := hstorable record.1 (List.fst_mem_of_mem_zipIdx hrecord)
  numbered record hrecord := by
    have hlength := length_goods_le hentries hgoods
    have hbound := List.snd_lt_add_of_mem_zipIdx hrecord
    omega
  distinct := by
    have hordered : ((orderedEntries entries).map ToolEntry.name).Nodup :=
      ((orderedEntries_perm entries).map ToolEntry.name).nodup_iff.mpr hentries.distinct
    have hmap : (goods.zipIdx 1).map (fun record => record.1.name) = goods.map ToolEntry.name := by
      rw [← List.zipIdx_map_fst 1 goods, List.map_map]
      simp
    rw [hmap]
    exact (hgoods.sublist.map ToolEntry.name).nodup hordered
  fresh record hrecord hroot hmem := by
    have hname := utf8_name_ne_nil
      (packable_of_mem_goods hentries hgoods (List.fst_mem_of_mem_zipIdx hrecord))
      (hstorable record.1 (List.fst_mem_of_mem_zipIdx hrecord)).1
    simp only [FacetInitrd.rootOnly, rootEntry, List.map_cons, List.map_nil,
      List.mem_singleton, List.cons.injEq] at hmem
    exact hname hmem.2
  room := by
    have hfew : (withoutRoot goods).length ≤ (withoutRoot entries).length := by
      calc (withoutRoot goods).length ≤ (withoutRoot (orderedEntries entries)).length :=
            (hgoods.sublist.filter _).length_le
        _ = (withoutRoot entries).length := ((orderedEntries_perm entries).filter _).length_eq
    have hlimit := hentries.few
    rw [List.zipIdx_map_fst]
    simp only [FacetInitrd.rootOnly, List.length_singleton, cpioMaxEntries]
    omega

/-- Creating a table reads the first records and then stands before the next. -/
theorem create_after_goods {image : List UInt8} {next : ToolEntry} {others : List ToolEntry}
    (hsplit : orderedEntries entries ++ [trailerEntry] = goods ++ next :: others)
    (harchive : archiveBytes entries = .ok image) :
    ∃ before after grown fuel, before.length % 4 = 0
      ∧ facetInitrdCreate image
        = readRecords (before ++ (recordBytes (next, goods.length + 1) ++ after)) (fuel + 1)
          before.length grown
      ∧ grown.entries = rootEntry :: (withoutRoot goods).map archiveEntry := by
  have hadmits := admits_goods hentries hgoods hstorable
  have hcount := length_le_flatMap_recordBytes (goods.zipIdx 1)
  rw [List.length_zipIdx] at hcount
  have hnextLength := header_le_recordBytes (next, goods.length + 1)
  have himage : image
      = [] ++ ((goods.zipIdx 1).flatMap recordBytes
        ++ (recordBytes (next, goods.length + 1)
          ++ (others.zipIdx (goods.length + 2)).flatMap recordBytes)) := by
    rw [← ((foldlM_appendRecord_eq_ok rfl).mp harchive).2, hsplit, List.zipIdx_append,
      List.flatMap_append, List.zipIdx_cons, List.flatMap_cons, Nat.add_comm 1 goods.length]
  have hlength : image.length
      = ((goods.zipIdx 1).flatMap recordBytes).length
        + ((recordBytes (next, goods.length + 1)).length
          + ((others.zipIdx (goods.length + 2)).flatMap recordBytes).length) := by
    rw [himage]
    simp only [List.nil_append, List.length_append]
  obtain ⟨fuel, hfuel⟩ : ∃ fuel, image.length + 1 = (goods.zipIdx 1).length + (fuel + 1) := by
    refine ⟨image.length - goods.length, ?_⟩
    rw [List.length_zipIdx]
    omega
  obtain ⟨grown, hrun, hgrown⟩ := @readRecords_append []
    (recordBytes (next, goods.length + 1)
      ++ (others.zipIdx (goods.length + 2)).flatMap recordBytes) _ _ rfl hadmits (fuel + 1)
  refine ⟨(goods.zipIdx 1).flatMap recordBytes,
    (others.zipIdx (goods.length + 2)).flatMap recordBytes, grown, fuel,
    length_flatMap_recordBytes_mod _, ?_, ?_⟩
  · rw [facetInitrdCreate, if_neg (by omega), hfuel, himage]
    simpa only [List.nil_append, List.length_nil, Nat.zero_add] using hrun
  · rw [hgrown, List.zipIdx_map_fst]
    rfl

end Split

/-- The tool writes an archive when all names have encodings. -/
theorem archiveBytes_eq_ok {image : List UInt8} (harchive : archiveBytes entries = .ok image) :
    ∀ entry ∈ entries, Encodes entry.name := by
  intro entry hentry
  have hmem : entry ∈ orderedEntries entries ++ [trailerEntry] :=
    List.mem_append_left _ ((orderedEntries_perm entries).mem_iff.mpr hentry)
  rw [← List.zipIdx_map_fst 1 (orderedEntries entries ++ [trailerEntry]), List.mem_map] at hmem
  obtain ⟨record, hrecord, rfl⟩ := hmem
  exact ((foldlM_appendRecord_eq_ok rfl).mp harchive).1 record hrecord

theorem archive_loads_of_storable (hentries : Packable entries)
    (hstorable : ∀ entry ∈ entries, NameStorable entry) : Loads entries := by
  have hall : ∀ entry ∈ orderedEntries entries, NameStorable entry :=
    fun entry hentry => hstorable entry ((orderedEntries_perm entries).mem_iff.mp hentry)
  have hencodes : ∀ record ∈ (orderedEntries entries ++ [trailerEntry]).zipIdx 1,
      Encodes record.1.name := by
    intro record hrecord
    cases List.mem_append.mp (List.fst_mem_of_mem_zipIdx hrecord) with
    | inl hentry => exact (hall record.1 hentry).1
    | inr htrailer =>
      rw [List.mem_singleton.mp htrailer]
      decide
  have harchive : archiveBytes entries = .ok _ :=
    (foldlM_appendRecord_eq_ok rfl).mpr ⟨hencodes, rfl⟩
  obtain ⟨before, after, grown, fuel, hbefore, hcreate, hgrown⟩ :=
    create_after_goods hentries (List.prefix_refl _) hall rfl harchive
  have hlength := length_goods_le hentries (List.prefix_refl (orderedEntries entries))
  have hino : (orderedEntries entries).length + 1 < 2 ^ 32 := by omega
  have hread := readRecord_recordBytes hino
    (⟨by decide, by decide, by decide, by decide⟩ : FieldsFit trailerEntry) (by decide) (by decide)
    (by decide) hbefore after
  have hheader := header_le_recordBytes (trailerEntry, (orderedEntries entries).length + 1)
  refine ⟨_, grown, harchive, ?_, ?_⟩
  · rw [hcreate, readRecords_succ, if_neg (by simp only [List.length_append]; omega), hread,
      if_pos rfl]
  · rw [hgrown]
    exact (((orderedEntries_perm entries).filter _).map archiveEntry).cons rootEntry

theorem storable_of_archive_loads (hentries : Packable entries)
    (hloads : Loads entries) : ∀ entry ∈ entries, NameStorable entry := by
  cases hfind : (orderedEntries entries).find? (fun entry => !decide (NameStorable entry)) with
  | none =>
    intro entry hentry
    simpa using List.find?_eq_none.mp hfind entry
      ((orderedEntries_perm entries).mem_iff.mpr hentry)
  | some bad =>
    obtain ⟨hbad, goods, rest, hparts, hstorable⟩ := List.find?_eq_some_iff_append.mp hfind
    simp only [Bool.not_eq_true', Bool.not_not, decide_eq_true_eq, decide_eq_false_iff_not]
      at hbad hstorable
    have hgoods : goods <+: orderedEntries entries := ⟨bad :: rest, hparts.symm⟩
    have hmem : bad ∈ entries := (orderedEntries_perm entries).mem_iff.mp (by simp [hparts])
    have hpackable := hentries.packable bad hmem
    have hsplit : orderedEntries entries ++ [trailerEntry]
        = goods ++ bad :: (rest ++ [trailerEntry]) := by
      rw [hparts, List.append_assoc, List.cons_append]
    obtain ⟨image, initrd, harchive, hinitrd, hperm⟩ := hloads
    have hencodes := archiveBytes_eq_ok harchive bad hmem
    obtain ⟨before, after, grown, fuel, hbefore, hcreate, hgrown⟩ :=
      create_after_goods hentries hgoods hstorable hsplit harchive
    have hlength := length_goods_le hentries hgoods
    have hino : goods.length + 1 < 2 ^ 32 := by omega
    have hzero := zero_not_mem_cleanName hpackable.clean
    have hheader := header_le_recordBytes (bad, goods.length + 1)
    rw [hcreate, readRecords_succ, if_neg (by simp only [List.length_append]; omega)] at hinitrd
    exfalso
    by_cases hname : (utf8 bad.name).length + 1 < 2 ^ 32
    · have htrailer : bad.name = trailerEntry.name := by
        by_contra hother
        exact hbad ⟨hencodes, hother, hname⟩
      rw [readRecord_recordBytes hino hpackable.fits hencodes hzero hname hbefore after,
        if_pos htrailer] at hinitrd
      obtain rfl : grown = initrd := Option.some.inj hinitrd
      have hroot : bad.name ≠ rootName := by
        rw [htrailer]
        decide
      have hheld : archiveEntry bad ∈ grown.entries := by
        refine hperm.mem_iff.mpr (List.mem_cons_of_mem _ (List.mem_map_of_mem ?_))
        exact List.mem_filter.mpr ⟨hmem, by simpa using hroot⟩
      rw [hgrown, List.mem_cons, List.mem_map] at hheld
      cases hheld with
      | inl hrootEntry =>
        have hpath := congrArg InitrdEntry.path hrootEntry
        exact utf8_name_ne_nil hpackable hencodes (List.cons.inj hpath).2
      | inr hgood =>
        obtain ⟨good, hgood, hsame⟩ := hgood
        have hpath := congrArg InitrdEntry.path hsame
        have hgoodStorable := hstorable good (List.mem_filter.mp hgood).1
        have hgoodName : good.name = bad.name :=
          utf8_inj hgoodStorable.1 hencodes (List.cons.inj hpath).2
        exact hgoodStorable.2.1 (hgoodName.trans htrailer)
    · rw [readRecord_eq, placed_longName hzero (by omega)] at hinitrd
      exact (Option.some_ne_none initrd hinitrd.symm).elim

/-- The archive of a map loads exactly when every name has an encoding that is
short enough for its field and none reads as the trailer. -/
theorem archive_loads_iff {entries : List ToolEntry} (hentries : Packable entries) :
    Loads entries ↔ ∀ entry ∈ entries, NameStorable entry :=
  ⟨storable_of_archive_loads hentries, archive_loads_of_storable hentries⟩

/-- A small file tree. -/
def sampleEntries : List ToolEntry :=
  [⟨rootName, 0o040755, 0, 0, []⟩, ⟨codePoints "bin", 0o040755, 0, 0, []⟩,
    ⟨codePoints "bin/sh", 0o100755, 0, 0, [127, 69]⟩]

theorem archive_loads_iff_sample : Loads sampleEntries := by
  refine (archive_loads_iff ⟨?_, by decide, by decide⟩).mpr (by decide)
  intro entry hentry
  simp only [sampleEntries, List.mem_cons, List.not_mem_nil, or_false] at hentry
  rcases hentry with rfl | rfl | rfl <;>
    exact ⟨by decide, by decide, by decide, by decide, by decide, by decide⟩

theorem packable_file {entry : ToolEntry} (hclean : cleanName entry.name = .ok entry.name)
    (hkind : entry.mode = 0o100644) (howner : entry.uid = 0 ∧ entry.gid = 0)
    (hdata : entry.data.length < 2 ^ 32) : Packable [entry] := by
  refine ⟨?_, List.nodup_singleton _, ?_⟩
  · intro other hother
    rw [List.mem_singleton.mp hother]
    refine ⟨hclean, fun _ => Or.inl ?_, ?_, ?_, ?_, hdata⟩
    · rw [hkind]
      decide
    · omega
    · omega
    · omega
  · exact (List.length_filter_le _ _).trans (by simp)

/-- A file that is called like the trailer. -/
def trailerFile : ToolEntry := ⟨codePoints "TRAILER!!!", 0o100644, 0, 0, [1, 2, 3]⟩

/-- A file whose name on the disk was the byte `0xff`. -/
def surrogateFile : ToolEntry := ⟨[.surrogate 0x4ff], 0o100644, 0, 0, []⟩

/-- The kernel accepts the archive of the first file and holds the root only.  Of
the second the tool writes no archive. -/
theorem trailerFile_lost :
    Packable [trailerFile]
      ∧ ((archiveBytes [trailerFile]).toOption.bind facetInitrdCreate).map FacetInitrd.entries
        = some [rootEntry]
      ∧ ¬ Loads [trailerFile]
      ∧ Packable [surrogateFile]
      ∧ archiveBytes [surrogateFile] = .error ⟨surrogateFile.name⟩ := by
  have hheld : ((archiveBytes [trailerFile]).toOption.bind facetInitrdCreate).map
      FacetInitrd.entries = some [rootEntry] := by
    decide +kernel
  refine ⟨packable_file (by decide) rfl ⟨rfl, rfl⟩ (by decide), hheld, ?_,
    packable_file (by decide) rfl ⟨rfl, rfl⟩ (by decide), by decide +kernel⟩
  rintro ⟨image, initrd, harchive, hcreate, hperm⟩
  rw [harchive, Except.toOption, Option.bind_some, hcreate, Option.map_some,
    Option.some_inj] at hheld
  rw [hheld] at hperm
  contradiction

end FacetOS.Initrd
