import FacetOS.Boot.Bootstub

/-!
# What the boot stub leaves behind

The segments of the kernel go wherever the kernel image says, and only the stub
and the image itself are protected from them.  The boot data that later stages
rely on is intact exactly when the segments happen not to change it.
-/

namespace FacetOS.Boot

open ByteMemory Passes

variable {stub : Stub} {memory loaded before : Memory}

/-! ## What has to stay -/

def Module.Covers (module : Module) (position : ℕ) : Prop :=
  module.start ≤ position ∧ position < module.finish

variable (memory)

/-- The position belongs to the module's command line, its terminator included. -/
def Module.InCommandLine (module : Module) (position : ℕ) : Prop :=
  module.string ≠ 0 ∧ module.string ≤ position
    ∧ ∀ earlier, module.string ≤ earlier → earlier < position → memory earlier ≠ 0

/-- The bytes of the later modules and of their command lines. -/
def Payload (info position : ℕ) : Prop :=
  ∃ module ∈ (modules memory info).tail,
    module.Covers position ∨ module.InCommandLine memory position

/-- A byte of the boot information or of the module array. -/
def Record (info position : ℕ) : Prop :=
  Block.Covers ⟨info, 88⟩ position
    ∨ Block.Covers ⟨modsAddr memory info, 16 * modsCount memory info⟩ position

/-- The boot loader stored the boot information, the module array and the later
modules with their command lines apart from each other. -/
structure Separated (memory : Memory) (info : ℕ) : Prop where
  records : RecordsApart memory info
  payload : ∀ position, Payload memory info position → ¬Record memory info position

/-- The rest of the boot data is intact: the list has lost its first module, and the
later modules, their command lines and the other fields are unchanged. -/
structure Intact (info : ℕ) (before after : Memory) : Prop where
  list : modules after info = (modules before info).tail
  count : modsCount after info = modsCount before info - 1
  payload : ∀ position, Payload before info position → after position = before position
  fields : ∀ position, Block.Covers ⟨info, 88⟩ position → ¬Block.Covers ⟨info + 20, 4⟩ position →
    after position = before position

/-- The kernel's segments, as the first module lists them. -/
def bootSegments (info : ℕ) : List Segment :=
  kernelSegments memory (moduleAt memory (modsAddr memory info) 0).start

/-- A byte of the boot information or of a later module's entry. -/
def KeptRecord (info position : ℕ) : Prop :=
  Block.Covers ⟨info, 88⟩ position
    ∨ Block.Covers ⟨modsAddr memory info + 16, 16 * (modsCount memory info - 1)⟩ position

/-- Wherever a segment covers a byte that has to stay, the last one that does stores
the byte that is already there. -/
def Harmless (info : ℕ) : Prop :=
  ∀ position, KeptRecord memory info position ∨ Payload memory info position →
    Segment.Restores memory (moduleAt memory (modsAddr memory info) 0).start
      (bootSegments memory info) position

/-- No segment covers the boot information or a later module's entry. -/
def SparesRecords (info : ℕ) : Prop :=
  ∀ segment ∈ bootSegments memory info, ∀ position, segment.Covers position →
    ¬KeptRecord memory info position

variable {memory}

section Records

variable {info : ℕ}
  (hrecords : ∀ position, KeptRecord before info position → loaded position = before position)

include hrecords

theorem loadNat_info {offset width : ℕ} (hupper : offset + width ≤ 88) :
    loadNat loaded (info + offset) width = loadNat before (info + offset) width := by
  apply loadNat_congr
  rintro position ⟨hlower, hposition⟩
  dsimp only at hlower hposition
  exact hrecords position (.inl ⟨by dsimp only; omega, by dsimp only; omega⟩)

theorem loadNat_entry {address width : ℕ} (hlower : modsAddr before info + 16 ≤ address)
    (hupper : address + width ≤ modsAddr before info + 16 * modsCount before info) :
    loadNat loaded address width = loadNat before address width := by
  apply loadNat_congr
  rintro position ⟨hfrom, hto⟩
  dsimp only at hfrom hto
  exact hrecords position (.inr ⟨by dsimp only; omega, by dsimp only; omega⟩)

/-- If loading keeps the records, the removal works on the original list. -/
theorem removed_of_records (hapart : RecordsApart before info)
    (hcount : 2 ≤ modsCount before info) :
    modsAddr loaded info = modsAddr before info ∧ modsCount loaded info = modsCount before info
      ∧ Removed info loaded (removeKernelModule info loaded) := by
  have haddr : modsAddr loaded info = modsAddr before info := loadNat_info hrecords (by omega)
  have hsame : modsCount loaded info = modsCount before info := loadNat_info hrecords (by omega)
  refine ⟨haddr, hsame, removed_removeKernelModule ?_ (by omega)⟩
  rw [RecordsApart, haddr, hsame]
  exact hapart

theorem modules_removed (hapart : RecordsApart before info) (hcount : 2 ≤ modsCount before info) :
    modules (removeKernelModule info loaded) info = (modules before info).tail := by
  obtain ⟨haddr, hsame, hremoved⟩ := removed_of_records hrecords hapart hcount
  have hmods : modsAddr (removeKernelModule info loaded) info = modsAddr before info := by
    rw [← haddr]
    apply loadNat_congr
    rintro position ⟨hlower, hupper⟩
    dsimp only at hlower hupper
    apply hremoved.kept
    · rintro ⟨-, hfield⟩
      dsimp only at hfield
      omega
    · rintro ⟨hfrom, hto⟩
      dsimp only at hfrom hto
      rw [haddr, hsame] at hto
      rw [haddr] at hfrom
      unfold RecordsApart at hapart
      omega
  obtain ⟨later, hlater⟩ : ∃ later, modsCount before info = later + 1 :=
    Nat.exists_eq_succ_of_ne_zero (by omega)
  have hleft : modsCount (removeKernelModule info loaded) info = later := by
    rw [hremoved.count, hsame, hlater, Nat.add_sub_cancel]
  rw [modules, modules, hleft, hlater, hmods, List.range_succ_eq_map, List.map_cons, List.tail_cons,
    List.map_map]
  apply List.map_congr_left
  intro index hindex
  have hlt := List.mem_range.mp hindex
  have hentry := hremoved.entry index (by omega)
  rw [haddr] at hentry
  rw [hentry]
  simp only [moduleAt, Function.comp_apply, Module.mk.injEq, Nat.succ_eq_add_one]
  exact ⟨loadNat_entry hrecords (by omega) (by omega), loadNat_entry hrecords (by omega) (by omega),
    loadNat_entry hrecords (by omega) (by omega), loadNat_entry hrecords (by omega) (by omega)⟩

/-- If loading keeps the records, the boot data is intact exactly when loading keeps the
later modules and their command lines. -/
theorem intact_iff_payload (hseparated : Separated before info)
    (hcount : 2 ≤ modsCount before info) :
    Intact info before (removeKernelModule info loaded)
      ↔ ∀ position, Payload before info position → loaded position = before position := by
  obtain ⟨haddr, hsame, hremoved⟩ := removed_of_records hrecords hseparated.records hcount
  have hkept : ∀ position, Payload before info position →
      removeKernelModule info loaded position = loaded position := by
    intro position hpayload
    have hrecord := hseparated.payload position hpayload
    apply hremoved.kept
    · rintro ⟨hfrom, hto⟩
      dsimp only at hfrom hto
      exact hrecord (.inl ⟨by dsimp only; omega, by dsimp only; omega⟩)
    · rw [haddr, hsame]
      exact fun harray => hrecord (.inr harray)
  constructor
  · intro hintact position hpayload
    rw [← hkept position hpayload]
    exact hintact.payload position hpayload
  · intro hpayload
    refine ⟨modules_removed hrecords hseparated.records hcount, ?_, ?_, ?_⟩
    · rw [hremoved.count, hsame]
    · intro position hposition
      rw [hkept position hposition]
      exact hpayload position hposition
    · intro position hinfo hfield
      rw [← hrecords position (.inl hinfo)]
      apply hremoved.kept position hfield
      rw [haddr, hsame]
      rintro ⟨hfrom, hto⟩
      have hapart := hseparated.records
      unfold RecordsApart at hapart
      unfold Block.Covers at hinfo
      dsimp only at hfrom hto hinfo
      omega

end Records

theorem bootstubMain_eq_ok {magic info entry : ℕ} {after : Memory}
    (hmain : bootstubMain stub magic info before = .ok (entry, after)) :
    2 ≤ modsCount before info ∧ ∃ size,
      (∀ segment ∈ bootSegments before info,
        segment.Sound (moduleAt before (modsAddr before info) 0).start size)
      ∧ after = removeKernelModule info ((bootSegments before info).foldl
        (Segment.place (moduleAt before (modsAddr before info) 0).start) before) := by
  obtain ⟨_, -, hmain⟩ := bind_eq_ok.mp hmain
  obtain ⟨_, -, hmain⟩ := bind_eq_ok.mp hmain
  obtain ⟨_, -, hmain⟩ := bind_eq_ok.mp hmain
  obtain ⟨_, hcount, hmain⟩ := bind_eq_ok.mp hmain
  obtain ⟨⟨kernelEntry, loaded⟩, hload, hmain⟩ := bind_eq_ok.mp hmain
  cases hmain
  obtain ⟨hsound, rfl⟩ := loadKernelElf_eq_ok hload
  exact ⟨not_lt.mp (reject_eq_ok.mp hcount), _, hsound, rfl⟩

/-- When the stub returns an entry point, the rest of the boot data is intact if the
kernel's segments are harmless to it; and only then, if they spare the records
that the removal of the kernel module reads. -/
theorem bootstub_leaves_rest_intact (stub : Stub) (magic info : ℕ) (before after : Memory)
    (entry : ℕ) (hseparated : Separated before info)
    (hmain : bootstubMain stub magic info before = .ok (entry, after)) :
    (Harmless before info → Intact info before after)
      ∧ (SparesRecords before info → (Intact info before after ↔ Harmless before info)) := by
  obtain ⟨hcount, size, hsound, rfl⟩ := bootstubMain_eq_ok hmain
  constructor
  · intro hharmless
    have hkept := fun position hposition =>
      (Segment.restores_iff hsound).mp (hharmless position hposition)
    exact (intact_iff_payload (fun position hrecord => hkept position (.inl hrecord)) hseparated
      hcount).mpr fun position hpayload => hkept position (.inr hpayload)
  · intro hspares
    have hrecords : ∀ position, KeptRecord before info position →
        (bootSegments before info).foldl
          (Segment.place (moduleAt before (modsAddr before info) 0).start) before position
        = before position := fun position hrecord =>
      Segment.foldl_place_uncovered hsound fun segment hsegment hcovers =>
        hspares segment hsegment position hcovers hrecord
    rw [intact_iff_payload hrecords hseparated hcount]
    constructor
    · intro hpayload position hposition
      apply (Segment.restores_iff hsound).mpr
      cases hposition with
      | inl hrecord => exact hrecords position hrecord
      | inr hposition => exact hpayload position hposition
    · intro hharmless position hpayload
      exact (Segment.restores_iff hsound).mp (hharmless position (.inr hpayload))

/-! ## Two boots -/

/-- Boot information at 100, the array of a kernel and one more module at 200, that
module at 300 with its command line at 310, and at 400 a kernel with one segment. -/
def smallBoot (paddr : ℕ) : Memory :=
  [(100, LittleEndian.leBytes 4 8), (120, LittleEndian.leBytes 4 2),
    (124, LittleEndian.leBytes 4 200),
    (200, LittleEndian.leBytes 4 400), (204, LittleEndian.leBytes 4 524),
    (216, LittleEndian.leBytes 4 300), (220, LittleEndian.leBytes 4 304),
    (224, LittleEndian.leBytes 4 310), (300, [1, 2, 3, 4]), (310, [114]),
    (400, [0x7f, 0x45, 0x4c, 0x46, 2, 1]), (418, [62]), (424, LittleEndian.leBytes 4 0x100000),
    (432, [64]), (454, [56]), (456, [1]), (464, [1]), (472, [120]),
    (488, LittleEndian.leBytes 4 paddr), (496, [4]), (504, [4]), (520, [9, 9, 9, 9])].foldl
    (fun memory (address, bytes) => store memory address bytes) (fun _ => 0)

def smallStub : Stub := ⟨800, 900⟩

/-- The layout that both boots share. -/
structure SmallLayout (memory : Memory) : Prop where
  addr : modsAddr memory 100 = 200
  count : modsCount memory 100 = 2
  list : modules memory 100 = [⟨400, 524, 0, 0⟩, ⟨300, 304, 310, 0⟩]
  terminated : memory 311 = 0

theorem SmallLayout.payload {position : ℕ} (hlayout : SmallLayout memory)
    (hpayload : Payload memory 100 position) : 300 ≤ position ∧ position ≤ 311 := by
  obtain ⟨module, hmodule, hposition⟩ := hpayload
  rw [hlayout.list, List.tail_cons, List.mem_singleton] at hmodule
  subst hmodule
  obtain ⟨hfrom, hto⟩ | ⟨-, hfrom, hline⟩ := hposition
  · dsimp only at hfrom hto
    omega
  · dsimp only at hfrom hline
    refine ⟨by omega, not_lt.mp fun hbeyond => ?_⟩
    exact hline 311 (by omega) hbeyond hlayout.terminated

theorem SmallLayout.separated (hlayout : SmallLayout memory) : Separated memory 100 where
  records := by
    rw [RecordsApart, hlayout.addr]
    omega
  payload := by
    intro position hpayload hrecord
    have hbounds := hlayout.payload hpayload
    rw [Record, hlayout.addr, hlayout.count] at hrecord
    unfold Block.Covers at hrecord
    dsimp only at hrecord
    omega

theorem smallLayout_at_module : SmallLayout (smallBoot 300) where
  addr := by decide +kernel
  count := by decide +kernel
  list := by decide +kernel
  terminated := by decide +kernel

theorem smallLayout_apart : SmallLayout (smallBoot 700) where
  addr := by decide +kernel
  count := by decide +kernel
  list := by decide +kernel
  terminated := by decide +kernel

theorem exists_of_toOption_map {α : Type} {result : Except Failure α} {read : α → UInt8}
    {byte : UInt8} (hread : result.toOption.map read = some byte) :
    ∃ value, result = .ok value ∧ read value = byte := by
  cases result with
  | error failure => cases hread
  | ok value => exact ⟨value, rfl, Option.some.inj hread⟩

/-- A kernel that is linked to where another module lies overwrites it. -/
theorem bootstub_overwrites_module :
    ∃ result, bootstubMain smallStub bootloaderMagic 100 (smallBoot 300) = .ok result
      ∧ Separated (smallBoot 300) 100 ∧ smallBoot 300 300 = 1 ∧ result.2 300 = 9
      ∧ ¬Intact 100 (smallBoot 300) result.2 := by
  obtain ⟨result, hresult, hbyte⟩ := exists_of_toOption_map
    (show (bootstubMain smallStub bootloaderMagic 100 (smallBoot 300)).toOption.map
      (fun result => result.2 300) = some 9 by decide +kernel)
  have hbefore : smallBoot 300 300 = 1 := by decide +kernel
  refine ⟨result, hresult, smallLayout_at_module.separated, hbefore, hbyte, fun hintact => ?_⟩
  have hpayload : Payload (smallBoot 300) 100 300 := by
    refine ⟨⟨300, 304, 310, 0⟩, ?_, .inl ⟨by decide, by decide⟩⟩
    rw [smallLayout_at_module.list]
    exact List.mem_singleton_self _
  have hsame := hintact.payload 300 hpayload
  rw [hbyte, hbefore] at hsame
  exact absurd hsame (by decide)

/-- A kernel that is linked to free memory leaves the rest intact. -/
theorem bootstub_leaves_rest_intact_apart :
    ∃ result, bootstubMain smallStub bootloaderMagic 100 (smallBoot 700) = .ok result
      ∧ Separated (smallBoot 700) 100 ∧ Intact 100 (smallBoot 700) result.2 := by
  obtain ⟨⟨entry, after⟩, hresult, -⟩ := exists_of_toOption_map
    (show (bootstubMain smallStub bootloaderMagic 100 (smallBoot 700)).toOption.map
      (fun result => result.2 300) = some 1 by decide +kernel)
  have hseparated := smallLayout_apart.separated
  refine ⟨(entry, after), hresult, hseparated, ?_⟩
  apply (bootstub_leaves_rest_intact smallStub bootloaderMagic 100 (smallBoot 700) after entry
    hseparated hresult).1
  intro position hposition
  have hsegments : bootSegments (smallBoot 700) 100 = [⟨120, 700, 4, 4⟩] := by decide +kernel
  rw [hsegments]
  intro earlier segment later hsplit hcovers
  have hsegment : segment ∈ [(⟨120, 700, 4, 4⟩ : Segment)] := by
    rw [hsplit]
    exact List.mem_append_right _ List.mem_cons_self
  obtain rfl := List.mem_singleton.mp hsegment
  have hfrom : 700 ≤ position := hcovers.1
  cases hposition with
  | inl hrecord =>
    rw [KeptRecord, smallLayout_apart.addr, smallLayout_apart.count] at hrecord
    unfold Block.Covers at hrecord
    dsimp only at hrecord
    omega
  | inr hpayload =>
    have hbounds := smallLayout_apart.payload hpayload
    omega

end FacetOS.Boot
