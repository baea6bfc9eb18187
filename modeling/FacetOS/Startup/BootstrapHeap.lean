import FacetOS.Core.Memory
import FacetOS.Core.Runs

/-!
# The heap of a process before its first pages

`dominit` and the applications use the same allocator until they can ask for pages.
Blocks are cut from a static array, each behind a header with its size, and are never
taken back.
-/

namespace FacetOS.Startup

open ByteMemory Runs

def bootstrapHeapSize : ℕ := 256 * 1024

/-- `sizeof(max_align_t)`. -/
def bootstrapAlignment : ℕ := 32

/-- `alignof(max_align_t)`, the alignment of the array. -/
def maxAlignment : ℕ := 16

/-- The size of `DominitBootstrapBlock` and of `AppBootstrapBlock`. -/
def bootstrapBlockSize : ℕ := 8

def roundUp (value : ℕ) : ℕ :=
  (value + (bootstrapAlignment - 1)) / bootstrapAlignment * bootstrapAlignment

def alignUp (value : ℕ) : ℕ :=
  if value > 2 ^ 64 - 1 - (bootstrapAlignment - 1) then 0 else roundUp value

/-- The pointer, which counts from the start of the array, and `bootstrap_used`. -/
def bootstrapMalloc (used size : ℕ) : Option ℕ × ℕ :=
  if size = 0 ∨ size > 2 ^ 64 - 1 - bootstrapBlockSize then (none, used)
  else
    let start := alignUp used
    let total := alignUp (bootstrapBlockSize + size)
    -- The room left is a `size_t`: it wraps if the block is larger than the heap.
    if total = 0 ∨ start > (2 ^ 64 + bootstrapHeapSize - total) % 2 ^ 64 then (none, used)
    else (some (start + bootstrapBlockSize), (start + total) % 2 ^ 64)

/-- The heap and the blocks that it gave away, with their headers. -/
structure ProcessHeap where
  used : ℕ
  blocks : List Block

def ProcessHeap.start : ProcessHeap := ⟨0, []⟩

def ProcessHeap.malloc (heap : ProcessHeap) (size : UInt64) : Option ℕ × ProcessHeap :=
  let (pointer, used) := bootstrapMalloc heap.used size.toNat
  (pointer, ⟨used, heap.blocks ++ pointer.toList.map fun pointer =>
    ⟨pointer - bootstrapBlockSize, bootstrapBlockSize + size.toNat⟩⟩)

/-! ## What a request should get -/

/-- The request succeeds exactly if it fits, its block lies with its header in the array,
aligned and apart from the blocks before it, and the array is not overrun. -/
structure Served (alignment : ℕ) (heap : ProcessHeap) (size : UInt64) : Prop where
  succeeds_iff : (heap.malloc size).1.isSome ↔
    roundUp heap.used + roundUp (bootstrapBlockSize + size.toNat) ≤ bootstrapHeapSize
  placed : ∀ pointer, (heap.malloc size).1 = some pointer →
    alignment ∣ pointer ∧ bootstrapBlockSize ≤ pointer ∧
      pointer + size.toNat ≤ bootstrapHeapSize ∧ ∀ block ∈ heap.blocks,
        block.Separate ⟨pointer - bootstrapBlockSize, bootstrapBlockSize + size.toNat⟩
  used_le : (heap.malloc size).2.used ≤ bootstrapHeapSize

/-- The size is so large that rounding it up would pass the end of `size_t`. -/
def Unroundable (_ : ProcessHeap) (size : UInt64) : Prop := 2 ^ 64 - 40 < size.toNat

/-- The block alone fits the heap, or its size cannot be rounded; nothing is asked for only
when nothing is left. -/
def Moderate (heap : ProcessHeap) (size : UInt64) : Prop :=
  (size.toNat = 0 → heap.used = bootstrapHeapSize) ∧
    (size.toNat + bootstrapBlockSize ≤ bootstrapHeapSize ∨ Unroundable heap size)

/-! ## The steps -/

/-- The blocks end below the part in use. -/
structure Filled (heap : ProcessHeap) : Prop where
  used_le : heap.used ≤ bootstrapHeapSize
  aligned : bootstrapAlignment ∣ heap.used
  below : ∀ block ∈ heap.blocks, block.address + block.size ≤ heap.used

theorem filled_start : Filled .start :=
  ⟨by decide, by decide, nofun⟩

theorem roundUp_of_dvd {value : ℕ} (hdvd : bootstrapAlignment ∣ value) :
    roundUp value = value := by
  unfold roundUp bootstrapAlignment at *
  omega

theorem le_roundUp (value : ℕ) : value ≤ roundUp value := by
  unfold roundUp bootstrapAlignment
  omega

/-- The requests that a filled heap refuses. -/
def Refused (heap : ProcessHeap) (size : UInt64) : Prop :=
  size.toNat = 0 ∨ Unroundable heap size ∨
    (roundUp (bootstrapBlockSize + size.toNat) ≤ bootstrapHeapSize ∧
      bootstrapHeapSize < heap.used + roundUp (bootstrapBlockSize + size.toNat))

section Steps

variable {heap : ProcessHeap} (hfilled : Filled heap) {size : UInt64}
include hfilled

theorem Filled.alignUp_used : alignUp heap.used = heap.used := by
  have hused := hfilled.used_le
  rw [alignUp, if_neg, roundUp_of_dvd hfilled.aligned]
  unfold bootstrapHeapSize bootstrapAlignment at *
  omega

theorem Filled.malloc_of_refused (hrefused : Refused heap size) :
    heap.malloc size = (none, heap) := by
  have hmalloc : bootstrapMalloc heap.used size.toNat = (none, heap.used) := by
    unfold bootstrapMalloc
    rw [hfilled.alignUp_used]
    unfold Refused Unroundable at hrefused
    unfold alignUp roundUp bootstrapHeapSize bootstrapBlockSize bootstrapAlignment at *
    split
    · rfl
    · exact if_pos (by split <;> omega)
  simp [ProcessHeap.malloc, hmalloc]

/-- A block above the size of the heap is given away like one that fits. -/
theorem Filled.malloc_of_not_refused (hrefused : ¬ Refused heap size) :
    heap.malloc size = (some (heap.used + bootstrapBlockSize),
      ⟨(heap.used + roundUp (bootstrapBlockSize + size.toNat)) % 2 ^ 64,
        heap.blocks ++ [⟨heap.used, bootstrapBlockSize + size.toNat⟩]⟩) := by
  have hused := hfilled.used_le
  have hmalloc : bootstrapMalloc heap.used size.toNat = (some (heap.used + bootstrapBlockSize),
      (heap.used + roundUp (bootstrapBlockSize + size.toNat)) % 2 ^ 64) := by
    have hround : alignUp (bootstrapBlockSize + size.toNat)
        = roundUp (bootstrapBlockSize + size.toNat) := by
      refine if_neg ?_
      unfold Refused Unroundable at hrefused
      unfold bootstrapBlockSize bootstrapAlignment
      omega
    unfold bootstrapMalloc
    rw [hfilled.alignUp_used, hround]
    unfold Refused Unroundable at hrefused
    unfold roundUp bootstrapHeapSize bootstrapBlockSize bootstrapAlignment at *
    rw [if_neg (by omega)]
    exact if_neg (by omega)
  simp [ProcessHeap.malloc, hmalloc]

/-- What is left of the contract for each kind of request. -/
theorem Filled.served_iff {alignment : ℕ} : Served alignment heap size ↔
    (Refused heap size ↔
      bootstrapHeapSize < heap.used + roundUp (bootstrapBlockSize + size.toNat)) ∧
      (¬ Refused heap size → alignment ∣ heap.used + bootstrapBlockSize) := by
  have hround := roundUp_of_dvd hfilled.aligned
  by_cases hrefused : Refused heap size
  · have hmalloc := hfilled.malloc_of_refused hrefused
    constructor
    · intro hserved
      have hiff := hserved.succeeds_iff
      rw [hmalloc, hround] at hiff
      simpa [hrefused] using hiff
    · rintro ⟨hiff, -⟩
      refine ⟨?_, ?_, ?_⟩
      · simpa [hmalloc, hround] using hiff.mp hrefused
      · simp [hmalloc]
      · exact hmalloc ▸ hfilled.used_le
  · have hmalloc := hfilled.malloc_of_not_refused hrefused
    have hheader : heap.used + bootstrapBlockSize - bootstrapBlockSize = heap.used :=
      Nat.add_sub_cancel _ _
    constructor
    · intro hserved
      have hiff := hserved.succeeds_iff
      rw [hmalloc, hround] at hiff
      have haligned := (hserved.placed _ (congrArg Prod.fst hmalloc)).1
      simp only [hrefused, Option.isSome_some, true_iff, false_iff, not_lt] at hiff ⊢
      exact ⟨hiff, fun _ => haligned⟩
    · rintro ⟨hiff, haligned⟩
      have hfits := not_lt.mp fun hlarge => hrefused (hiff.mpr hlarge)
      refine ⟨?_, ?_, ?_⟩
      · simpa [hmalloc, hround] using hfits
      · intro pointer hpointer
        rw [hmalloc] at hpointer
        obtain rfl := Option.some.inj hpointer
        rw [hheader]
        refine ⟨haligned hrefused, Nat.le_add_left _ _, ?_, fun block hblock =>
          Block.separate_of_le (hfilled.below block hblock)⟩
        rw [Nat.add_assoc]
        exact (Nat.add_le_add_left (le_roundUp _) _).trans hfits
      · rw [hmalloc]
        exact (Nat.mod_le _ _).trans hfits

/-- A block that fits leaves a filled heap. -/
theorem Filled.malloc (hserved : Served bootstrapBlockSize heap size) :
    Filled (heap.malloc size).2 := by
  by_cases hrefused : Refused heap size
  · rwa [hfilled.malloc_of_refused hrefused]
  have hfits := not_lt.mp fun hlarge =>
    hrefused ((hfilled.served_iff.mp hserved).1.mpr hlarge)
  have hused : (heap.used + roundUp (bootstrapBlockSize + size.toNat)) % 2 ^ 64
      = heap.used + roundUp (bootstrapBlockSize + size.toNat) :=
    Nat.mod_eq_of_lt (hfits.trans_lt (by decide))
  rw [hfilled.malloc_of_not_refused hrefused, hused]
  refine ⟨hfits, (Nat.dvd_add_right hfilled.aligned).mpr (Nat.dvd_mul_left _ _), ?_⟩
  rw [List.forall_mem_append]
  constructor
  · intro block hblock
    exact (hfilled.below block hblock).trans (Nat.le_add_right _ _)
  · intro block hblock
    obtain rfl := List.mem_singleton.mp hblock
    exact Nat.add_le_add_left (le_roundUp _) _

theorem Filled.served_iff_moderate :
    Served bootstrapBlockSize heap size ↔ Moderate heap size := by
  have hused := hfilled.used_le
  have haligned := hfilled.aligned
  rw [hfilled.served_iff]
  unfold Refused Moderate Unroundable
  unfold roundUp bootstrapHeapSize bootstrapBlockSize bootstrapAlignment at *
  omega

end Steps

/-- Every block stands behind a header that is half as large as the alignment. -/
theorem served_start_iff (size : UInt64) :
    Served maxAlignment .start size ↔ Unroundable .start size := by
  rw [filled_start.served_iff]
  unfold Refused Unroundable
  rw [show ProcessHeap.start.used = 0 from rfl]
  unfold roundUp maxAlignment bootstrapHeapSize bootstrapBlockSize bootstrapAlignment
  omega

/-! ## Runs -/

/-- No pointer of the allocator has the alignment of `max_align_t`, so requests are served
as they should only if all are refused.  But for the alignment, they are served exactly if
no block is larger than the whole heap. -/
theorem bootstrap_heap_iff (sizes : List UInt64) :
    (Along ProcessHeap.malloc (Served maxAlignment) .start sizes ↔
        Along ProcessHeap.malloc Unroundable .start sizes) ∧
      (Along ProcessHeap.malloc (Served bootstrapBlockSize) .start sizes ↔
        Along ProcessHeap.malloc Moderate .start sizes) := by
  constructor
  · have hstep (heap : ProcessHeap) (size : UInt64) (hstart : heap = .start)
        (hlarge : Unroundable heap size) : (heap.malloc size).2 = .start := by
      subst hstart
      rw [filled_start.malloc_of_refused (.inr (.inl hlarge))]
    refine along_congr (fun heap size hstart => ?_) hstep rfl sizes
    rw [hstart, served_start_iff]
  · refine along_congr (fun heap size hfilled => hfilled.served_iff_moderate) ?_ filled_start sizes
    intro heap size hfilled hmoderate
    exact hfilled.malloc (hfilled.served_iff_moderate.mpr hmoderate)

/-- The pointer to a single byte is not aligned, and a block as large as the heap ends
behind it. -/
theorem bootstrap_heap_overrun :
    ¬ Served maxAlignment .start 1 ∧
      (ProcessHeap.start.malloc 262144).1 = some 8 ∧
      (ProcessHeap.start.malloc 262144).2.used = bootstrapHeapSize + 32 := by
  refine ⟨fun hserved => ?_, by decide, by decide⟩
  exact absurd ((served_start_iff 1).mp hserved) (by unfold Unroundable; decide)

end FacetOS.Startup
