import FacetOS.Core.Copy
import FacetOS.Core.Passes

/-!
# The 32-bit boot stub

The stub copies the segments of the kernel, which is the first boot module, to
the physical addresses that the kernel image names, and takes that module off the
list the boot loader left.  Memory is flat and holds the boot information, the
module array, the modules and their command lines.
-/

namespace FacetOS.Boot

open ByteMemory Passes

/-! ## Failures -/

inductive Failure
  | notMultiboot | nullInfo | noModules | tooFewModules
  | invalidSize | tooSmall | notElf | notElf64 | notLittleEndian | notX8664 | headerSize
  | phoffHigh | headersOutside
  | offsetHigh | paddrHigh | fileszHigh | memszHigh | fileszAboveMemsz | segmentOutside
  | addressOverflow | overlapsStub | overlapsSource | entryHigh
  deriving DecidableEq, Repr

/-! ## The kernel image -/

def rangesOverlap (aStart aEnd bStart bEnd : ℕ) : Prop :=
  aStart < bEnd ∧ bStart < aEnd

instance (aStart aEnd bStart bEnd : ℕ) : Decidable (rangesOverlap aStart aEnd bStart bEnd) :=
  inferInstanceAs (Decidable (_ ∧ _))

/-- The low half of a 64-bit field whose high half must be zero. -/
def checkedLow32 (memory : Memory) (address : ℕ) (failure : Failure) : Except Failure ℕ := do
  reject (loadNat memory (address + 4) 4 ≠ 0) failure
  return loadNat memory address 4

/-- Where the stub itself lies. -/
structure Stub where
  start : ℕ
  finish : ℕ

def phnum (memory : Memory) (image : ℕ) : ℕ :=
  loadNat memory (image + 56) 2

/-- Program header `index` of the table at `headers`. -/
def headerType (memory : Memory) (headers index : ℕ) : ℕ :=
  loadNat memory (headers + 56 * index) 4

def headerSegment (memory : Memory) (headers index : ℕ) : Segment where
  offset := loadNat memory (headers + 56 * index + 8) 4
  paddr := loadNat memory (headers + 56 * index + 24) 4
  filesz := loadNat memory (headers + 56 * index + 32) 4
  memsz := loadNat memory (headers + 56 * index + 40) 4

/-- One round of the loop over the program headers. -/
def loadSegment (stub : Stub) (image size headers index : ℕ) (memory : Memory) :
    Except Failure Memory :=
  if headerType memory headers index ≠ 1 then .ok memory
  else do
    let header := headers + 56 * index
    let offset ← checkedLow32 memory (header + 8) .offsetHigh
    let paddr ← checkedLow32 memory (header + 24) .paddrHigh
    let filesz ← checkedLow32 memory (header + 32) .fileszHigh
    let memsz ← checkedLow32 memory (header + 40) .memszHigh
    reject (memsz < filesz) .fileszAboveMemsz
    reject (size < offset ∨ size - offset < filesz) .segmentOutside
    reject (0xffffffff - paddr < memsz) .addressOverflow
    reject (rangesOverlap paddr (paddr + memsz) stub.start stub.finish) .overlapsStub
    reject (rangesOverlap paddr (paddr + memsz) image (image + size)) .overlapsSource
    return Segment.place image memory ⟨offset, paddr, filesz, memsz⟩

/-- The loop.  The count of headers has 16 bits, so that it ends in `2 ^ 16` rounds. -/
def loadSegments (stub : Stub) (image size headers : ℕ) : ℕ → ℕ → Memory → Except Failure Memory
  | 0, _, memory => .ok memory
  | rounds + 1, index, memory =>
    if index < phnum memory image then do
      let loaded ← loadSegment stub image size headers index memory
      loadSegments stub image size headers rounds (index + 1) loaded
    else .ok memory

variable (memory : Memory)

/-- The checks of the image's header. -/
def checkHeader (image size : ℕ) : Except Failure Unit := do
  reject (size < 64) .tooSmall
  reject (load memory image 4 ≠ [0x7f, 0x45, 0x4c, 0x46]) .notElf
  reject (memory (image + 4) ≠ 2) .notElf64
  reject (memory (image + 5) ≠ 1) .notLittleEndian
  reject (loadNat memory (image + 18) 2 ≠ 62) .notX8664
  reject (loadNat memory (image + 54) 2 ≠ 56) .headerSize

def phoff (image : ℕ) : ℕ :=
  loadNat memory (image + 32) 4

def loadKernelElf (stub : Stub) (imageStart imageEnd : ℕ) (memory : Memory) :
    Except Failure (ℕ × Memory) := do
  reject (imageEnd ≤ imageStart) .invalidSize
  let size := imageEnd - imageStart
  checkHeader memory imageStart size
  let tableOffset ← checkedLow32 memory (imageStart + 32) .phoffHigh
  reject (phnum memory imageStart ≠ 0 ∧ (size < tableOffset
    ∨ size - tableOffset < phnum memory imageStart * 56)) .headersOutside
  let loaded ← loadSegments stub imageStart size (imageStart + tableOffset) (2 ^ 16) 0 memory
  let entry ← checkedLow32 loaded (imageStart + 24) .entryHigh
  return (entry, loaded)

/-! ## The module list -/

structure Module where
  start : ℕ
  finish : ℕ
  string : ℕ
  reserved : ℕ
  deriving DecidableEq, Repr

def modsCount (info : ℕ) : ℕ :=
  loadNat memory (info + 20) 4

def modsAddr (info : ℕ) : ℕ :=
  loadNat memory (info + 24) 4

def moduleAt (mods index : ℕ) : Module where
  start := loadNat memory (mods + 16 * index) 4
  finish := loadNat memory (mods + 16 * index + 4) 4
  string := loadNat memory (mods + 16 * index + 8) 4
  reserved := loadNat memory (mods + 16 * index + 12) 4

/-- The modules that the boot information lists. -/
def modules (info : ℕ) : List Module :=
  (List.range (modsCount memory info)).map (moduleAt memory (modsAddr memory info))

def copyField (destination source : ℕ) : Memory :=
  storeNat memory destination 4 (loadNat memory source 4)

/-- Assign the four fields of entry `index` to the entry before it. -/
def shiftModule (mods index : ℕ) : Memory :=
  let target := mods + 16 * (index - 1)
  let source := mods + 16 * index
  [0, 4, 8, 12].foldl (fun memory field => copyField memory (target + field) (source + field))
    memory

/-- The loop, which reads the count of modules anew in every round. -/
def shiftModules (info mods : ℕ) : ℕ → ℕ → Memory → Memory
  | 0, _, memory => memory
  | rounds + 1, index, memory =>
    if index < modsCount memory info
    then shiftModules info mods rounds (index + 1) (shiftModule memory mods index)
    else memory

def removeKernelModule (info : ℕ) (memory : Memory) : Memory :=
  let shifted := shiftModules info (modsAddr memory info) (2 ^ 32) 1 memory
  storeNat shifted (info + 20) 4 ((modsCount shifted info + (2 ^ 32 - 1)) % 2 ^ 32)

def bootloaderMagic : ℕ := 0x2badb002

/-- The entry point of the kernel and the memory the stub leaves. -/
def bootstubMain (stub : Stub) (magic info : ℕ) (memory : Memory) :
    Except Failure (ℕ × Memory) := do
  reject (magic ≠ bootloaderMagic) .notMultiboot
  reject (info = 0) .nullInfo
  reject (loadNat memory info 4 / 8 % 2 = 0) .noModules
  reject (modsCount memory info < 2) .tooFewModules
  let kernel := moduleAt memory (modsAddr memory info) 0
  let (entry, loaded) ← loadKernelElf stub kernel.start kernel.finish memory
  return (entry, removeKernelModule info loaded)

/-! ## Loading -/

/-- The segments to load, as the image in this memory lists them. -/
def ptLoads (memory : Memory) (headers index count : ℕ) : List Segment :=
  ((List.range' index count).filter fun index => headerType memory headers index = 1).map
    (headerSegment memory headers)

variable {stub : Stub} {image size headers : ℕ} {memory loaded before : Memory}
  {address start width finish : ℕ} {shifted : Memory}

theorem checkedLow32_eq_ok {value : ℕ} {failure : Failure}
    (hcheck : checkedLow32 memory address failure = .ok value) :
    value = loadNat memory address 4 := by
  obtain ⟨_, -, hvalue⟩ := bind_eq_ok.mp hcheck
  exact (Except.ok.inj hvalue).symm

theorem loadSegment_eq_ok {index : ℕ}
    (hload : loadSegment stub image size headers index memory = .ok loaded) :
    if headerType memory headers index = 1
    then (headerSegment memory headers index).Sound image size
      ∧ loaded = Segment.place image memory (headerSegment memory headers index)
    else loaded = memory := by
  rw [loadSegment] at hload
  split_ifs at hload with htype
  · rw [if_neg htype]
    exact (Except.ok.inj hload).symm
  rw [if_pos (not_not.mp htype)]
  obtain ⟨offset, hoffset, hload⟩ := bind_eq_ok.mp hload
  obtain ⟨paddr, hpaddr, hload⟩ := bind_eq_ok.mp hload
  obtain ⟨filesz, hfilesz, hload⟩ := bind_eq_ok.mp hload
  obtain ⟨memsz, hmemsz, hload⟩ := bind_eq_ok.mp hload
  obtain ⟨_, hsizes, hload⟩ := bind_eq_ok.mp hload
  obtain ⟨_, houtside, hload⟩ := bind_eq_ok.mp hload
  obtain ⟨_, -, hload⟩ := bind_eq_ok.mp hload
  obtain ⟨_, -, hload⟩ := bind_eq_ok.mp hload
  obtain ⟨_, hsource, hload⟩ := bind_eq_ok.mp hload
  have hsegment : headerSegment memory headers index = ⟨offset, paddr, filesz, memsz⟩ := by
    rw [checkedLow32_eq_ok hoffset, checkedLow32_eq_ok hpaddr, checkedLow32_eq_ok hfilesz,
      checkedLow32_eq_ok hmemsz]
    rfl
  rw [hsegment]
  have hfile := reject_eq_ok.mp hsizes
  have hwithin := reject_eq_ok.mp houtside
  have hdisjoint := reject_eq_ok.mp hsource
  refine ⟨⟨by dsimp only; omega, by dsimp only; omega, ?_⟩, (Except.ok.inj hload).symm⟩
  rintro position ⟨hfrom, hto⟩ ⟨hlower, hupper⟩
  dsimp only at hfrom hto hlower hupper
  exact hdisjoint ⟨by omega, by omega⟩

/-- The two memories hold the same image. -/
def SameImage (image size : ℕ) (memory before : Memory) : Prop :=
  ∀ position, Block.Covers ⟨image, size⟩ position → memory position = before position

theorem SameImage.loadNat_eq (hsame : SameImage image size memory before)
    (hlower : image ≤ address) (hupper : address + width ≤ image + size) :
    loadNat memory address width = loadNat before address width := by
  have hwithin : Block.Within ⟨address, width⟩ ⟨image, size⟩ := Block.within_of_le hlower hupper
  exact loadNat_congr fun position hcovers => hsame position (hwithin position hcovers)

/-- The program headers in use lie in the image. -/
def HeadersWithin (before : Memory) (image size headers : ℕ) : Prop :=
  image ≤ headers ∧ headers + 56 * phnum before image ≤ image + size

section Headers

variable {index : ℕ} (hsame : SameImage image size memory before)
  (hheaders : HeadersWithin before image size headers) (hindex : index < phnum before image)

include hsame hheaders hindex

theorem SameImage.headerType_eq :
    headerType memory headers index = headerType before headers index := by
  obtain ⟨hlower, hupper⟩ := hheaders
  exact hsame.loadNat_eq (by omega) (by omega)

theorem SameImage.headerSegment_eq :
    headerSegment memory headers index = headerSegment before headers index := by
  obtain ⟨hlower, hupper⟩ := hheaders
  simp only [headerSegment, Segment.mk.injEq]
  exact ⟨hsame.loadNat_eq (by omega) (by omega), hsame.loadNat_eq (by omega) (by omega),
    hsame.loadNat_eq (by omega) (by omega), hsame.loadNat_eq (by omega) (by omega)⟩

end Headers

theorem ptLoads_succ (before : Memory) (headers index count : ℕ) :
    ptLoads before headers index (count + 1)
      = (if headerType before headers index = 1 then [headerSegment before headers index] else [])
        ++ ptLoads before headers (index + 1) count := by
  unfold ptLoads
  rw [List.range'_succ, List.filter_cons]
  split_ifs <;> simp_all

/-- The loop places the segments of the image it started with, one after the
other: no round changes the image. -/
theorem loadSegments_eq_ok {rounds index : ℕ} (hsame : SameImage image size memory before)
    (hheaders : HeadersWithin before image size headers) (hsize : 64 ≤ size)
    (hindex : index ≤ phnum before image) (hrounds : phnum before image ≤ index + rounds)
    (hload : loadSegments stub image size headers rounds index memory = .ok loaded) :
    (∀ segment ∈ ptLoads before headers index (phnum before image - index),
        segment.Sound image size)
      ∧ loaded = (ptLoads before headers index (phnum before image - index)).foldl
        (Segment.place image) memory := by
  induction rounds generalizing index memory with
  | zero =>
    have hnone : phnum before image - index = 0 := by omega
    rw [hnone]
    exact ⟨by simp [ptLoads], (Except.ok.inj hload).symm⟩
  | succ rounds ih =>
    rw [loadSegments] at hload
    have hcount : phnum memory image = phnum before image :=
      hsame.loadNat_eq (by omega) (by omega)
    rw [hcount] at hload
    split_ifs at hload with hmore
    · obtain ⟨placed, hplaced, hrest⟩ := bind_eq_ok.mp hload
      have hstep := loadSegment_eq_ok hplaced
      rw [hsame.headerType_eq hheaders hmore, hsame.headerSegment_eq hheaders hmore] at hstep
      have hnext : phnum before image - index = phnum before image - (index + 1) + 1 := by omega
      rw [hnext, ptLoads_succ]
      split_ifs at hstep ⊢ with htype
      · obtain ⟨hsound, rfl⟩ := hstep
        have hkept : SameImage image size
            (Segment.place image memory (headerSegment before headers index)) before :=
          fun position hposition =>
            (Segment.place_image hsound hposition).trans (hsame position hposition)
        obtain ⟨hothers, hloaded⟩ := ih hkept hmore (by omega) hrest
        refine ⟨?_, hloaded⟩
        intro segment hsegment
        cases hsegment with
        | head => exact hsound
        | tail _ hsegment => exact hothers segment hsegment
      · subst hstep
        exact ih hsame hmore (by omega) hrest
    · have hnone : phnum before image - index = 0 := by omega
      rw [hnone]
      exact ⟨by simp [ptLoads], (Except.ok.inj hload).symm⟩

/-- The segments of the kernel image between two addresses. -/
def kernelSegments (memory : Memory) (image : ℕ) : List Segment :=
  ptLoads memory (image + phoff memory image) 0 (phnum memory image)

theorem loadKernelElf_eq_ok {imageEnd entry : ℕ}
    (hload : loadKernelElf stub image imageEnd memory = .ok (entry, loaded)) :
    (∀ segment ∈ kernelSegments memory image, segment.Sound image (imageEnd - image))
      ∧ loaded = (kernelSegments memory image).foldl (Segment.place image) memory := by
  obtain ⟨_, -, hload⟩ := bind_eq_ok.mp hload
  obtain ⟨_, hheader, hload⟩ := bind_eq_ok.mp hload
  obtain ⟨tableOffset, htable, hload⟩ := bind_eq_ok.mp hload
  obtain ⟨_, houtside, hload⟩ := bind_eq_ok.mp hload
  obtain ⟨placed, hplaced, hload⟩ := bind_eq_ok.mp hload
  obtain ⟨_, -, hload⟩ := bind_eq_ok.mp hload
  cases hload
  obtain ⟨_, hsmall, -⟩ := bind_eq_ok.mp hheader
  have hsize := reject_eq_ok.mp hsmall
  have hwithin := reject_eq_ok.mp houtside
  have hphnum : phnum memory image < 2 ^ 16 := by
    have hlt := LittleEndian.leValue_lt (ByteMemory.load memory (image + 56) 2)
    rwa [length_load] at hlt
  obtain rfl : tableOffset = phoff memory image := checkedLow32_eq_ok htable
  by_cases hnone : phnum memory image = 0
  · unfold kernelSegments
    rw [hnone]
    refine ⟨by simp [ptLoads], ?_⟩
    rw [show (2 : ℕ) ^ 16 = 65535 + 1 from rfl, loadSegments, hnone, if_neg (by omega)] at hplaced
    exact (Except.ok.inj hplaced).symm
  · have hheaders : HeadersWithin memory image (imageEnd - image) (image + phoff memory image) :=
      ⟨by omega, by omega⟩
    have hresult := loadSegments_eq_ok (fun _ _ => rfl) hheaders (by omega) (Nat.zero_le _)
      (by omega) hplaced
    rwa [Nat.sub_zero] at hresult

/-! ## Removing the kernel module -/

/-- The bytes from `start` to `finish` have moved down by sixteen. -/
def Shifted (memory shifted : Memory) (start finish : ℕ) : Prop :=
  ∀ position, shifted position
    = if start ≤ position ∧ position < finish then memory (position + 16) else memory position

theorem shifted_refl (memory : Memory) (start : ℕ) : Shifted memory memory start start := by
  intro position
  rw [if_neg (by omega)]

/-- Copying the next field extends what has moved. -/
theorem Shifted.copyField {field : ℕ} (hshifted : Shifted memory shifted start (start + field))
    (hfield : field ≤ 12) :
    Shifted memory (Boot.copyField shifted (start + field) (start + 16 + field)) start
      (start + (field + 4)) := by
  intro position
  rw [Boot.copyField, storeNat_loadNat_apply]
  by_cases hnew : start + field ≤ position ∧ position < start + field + 4
  · rw [if_pos hnew, if_pos (by omega), hshifted, if_neg (by omega)]
    congr 1
    omega
  · rw [if_neg hnew, hshifted]
    congr 1
    apply propext
    omega

/-- One round moves the entry. -/
theorem shifted_shiftModule (memory : Memory) (mods entry : ℕ) :
    Shifted memory (shiftModule memory mods (entry + 1)) (mods + 16 * entry)
      (mods + 16 * entry + 16) := by
  have hsource : mods + 16 * (entry + 1) = mods + 16 * entry + 16 := by omega
  simp only [shiftModule, List.foldl_cons, List.foldl_nil, Nat.add_sub_cancel, hsource]
  have hfirst := (shifted_refl memory (mods + 16 * entry)).copyField (Nat.zero_le 12)
  exact ((hfirst.copyField (by omega)).copyField (by omega)).copyField (by omega)

theorem Shifted.trans {middle last : Memory} {next : ℕ} (hfirst : Shifted memory middle start next)
    (hsecond : Shifted middle last next finish) (hle : start ≤ next) (hnext : next ≤ finish) :
    Shifted memory last start finish := by
  intro position
  rw [hsecond]
  by_cases hlater : next ≤ position ∧ position < finish
  · rw [if_pos hlater, hfirst, if_neg (by omega), if_pos (by omega)]
  · rw [if_neg hlater, hfirst]
    congr 1
    apply propext
    omega

theorem Shifted.loadNat_outside (hshifted : Shifted memory shifted start finish)
    (houtside : address + width ≤ start ∨ finish ≤ address) :
    loadNat shifted address width = loadNat memory address width := by
  apply loadNat_congr
  intro position hcovers
  unfold Block.Covers at hcovers
  dsimp only at hcovers
  rw [hshifted, if_neg (by omega)]

theorem Shifted.loadNat_inside (hshifted : Shifted memory shifted start finish)
    (hlower : start ≤ address) (hupper : address + width ≤ finish) :
    loadNat shifted address width = loadNat memory (address + 16) width := by
  unfold loadNat load
  congr 1
  apply List.map_congr_left
  intro index hindex
  have hlt := List.mem_range.mp hindex
  rw [hshifted, if_pos (by omega)]
  congr 1
  omega

/-- The boot information and the module array do not overlap. -/
def RecordsApart (memory : Memory) (info : ℕ) : Prop :=
  info + 88 ≤ modsAddr memory info
    ∨ modsAddr memory info + 16 * modsCount memory info ≤ info

theorem shifted_shiftModules {info mods count rounds entry : ℕ}
    (hcount : modsCount memory info = count)
    (hapart : info + 24 ≤ mods ∨ mods + 16 * count ≤ info + 20)
    (hentry : entry + 1 ≤ count) (hrounds : count ≤ entry + 1 + rounds) :
    Shifted memory (shiftModules info mods rounds (entry + 1) memory) (mods + 16 * entry)
      (mods + 16 * (count - 1)) := by
  induction rounds generalizing entry memory with
  | zero =>
    obtain rfl : entry = count - 1 := by omega
    exact shifted_refl memory _
  | succ rounds ih =>
    rw [shiftModules, hcount]
    split_ifs with hmore
    · have hround := shifted_shiftModule memory mods entry
      have hkept : modsCount (shiftModule memory mods (entry + 1)) info = count := by
        rw [← hcount]
        exact hround.loadNat_outside (by omega)
      have hrest : Shifted (shiftModule memory mods (entry + 1))
          (shiftModules info mods rounds (entry + 1 + 1) (shiftModule memory mods (entry + 1)))
          (mods + 16 * (entry + 1)) (mods + 16 * (count - 1)) :=
        ih hkept (by omega) (by omega)
      have hnext : mods + 16 * entry + 16 = mods + 16 * (entry + 1) := by omega
      rw [hnext] at hround
      exact hround.trans hrest (by omega) (by omega)
    · obtain rfl : entry = count - 1 := by omega
      exact shifted_refl memory _

/-- What the removal leaves: the later entries moved down, the count one less and
everything else as it was. -/
structure Removed (info : ℕ) (memory after : Memory) : Prop where
  count : modsCount after info = modsCount memory info - 1
  entry : ∀ index, index + 1 < modsCount memory info →
    moduleAt after (modsAddr memory info) index = moduleAt memory (modsAddr memory info) (index + 1)
  kept : ∀ position, ¬Block.Covers ⟨info + 20, 4⟩ position →
    ¬Block.Covers ⟨modsAddr memory info, 16 * modsCount memory info⟩ position →
    after position = memory position

theorem modsCount_lt (memory : Memory) (info : ℕ) : modsCount memory info < 2 ^ 32 := by
  have hlt := LittleEndian.leValue_lt (load memory (info + 20) 4)
  rwa [length_load] at hlt

theorem removed_removeKernelModule {info : ℕ} (hapart : RecordsApart memory info)
    (hcount : 2 ≤ modsCount memory info) :
    Removed info memory (removeKernelModule info memory) := by
  have hlt := modsCount_lt memory info
  have hinfo : info + 24 ≤ modsAddr memory info
      ∨ modsAddr memory info + 16 * modsCount memory info ≤ info + 20 := by
    unfold RecordsApart at hapart
    omega
  obtain ⟨shifted, hdefinition⟩ : ∃ shifted,
      shiftModules info (modsAddr memory info) (2 ^ 32) 1 memory = shifted := ⟨_, rfl⟩
  have hshifted : Shifted memory shifted (modsAddr memory info + 16 * 0)
      (modsAddr memory info + 16 * (modsCount memory info - 1)) :=
    hdefinition ▸ shifted_shiftModules rfl hinfo (by omega) (by omega)
  have hsame : modsCount shifted info = modsCount memory info :=
    hshifted.loadNat_outside (by omega)
  have hvalue : (modsCount memory info + (2 ^ 32 - 1)) % 2 ^ 32 = modsCount memory info - 1 := by
    omega
  rw [removeKernelModule, hdefinition, hsame, hvalue]
  have hentries : ∀ address, modsAddr memory info ≤ address →
      address + 4 ≤ modsAddr memory info + 16 * (modsCount memory info - 1) →
      loadNat (storeNat shifted (info + 20) 4 (modsCount memory info - 1)) address 4
        = loadNat memory (address + 16) 4 := by
    intro address hlower hupper
    rw [← hshifted.loadNat_inside (by omega) hupper]
    apply loadNat_congr
    intro position hcovers
    apply storeNat_outside
    unfold Block.Covers at hcovers ⊢
    dsimp only at hcovers ⊢
    omega
  refine ⟨loadNat_storeNat (by omega), ?_, ?_⟩
  · intro index hindex
    simp only [moduleAt, Module.mk.injEq]
    refine ⟨?_, ?_, ?_, ?_⟩
    all_goals
      rw [hentries _ (by omega) (by omega)]
      congr 1
  · intro position hfield harray
    rw [storeNat_outside hfield, hshifted, if_neg]
    unfold Block.Covers at harray
    dsimp only at harray
    omega

end FacetOS.Boot
