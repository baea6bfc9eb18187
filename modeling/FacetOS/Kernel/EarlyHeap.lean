import FacetOS.Core.Memory
import FacetOS.Core.Runs

/-!
# The bootstrap heap

Before the page allocator runs, memory is taken from a static array.  The heap
grows at its top and remembers the allocation made last, the only one that it can
take back or resize.
-/

namespace FacetOS.Kernel

open ByteMemory Runs

def kmallocBootstrapHeapSize : ℕ := 90 * 1024 * 1024

def kmallocAlignment : ℕ := 8

/-- The variables of the heap.  Pointers count from the start of the array. -/
structure BootstrapHeap where
  used : ℕ
  lastPtr : Option ℕ
  lastSize : ℕ
  lastOldUsed : ℕ

def alignUp (used : ℕ) : ℕ :=
  (used + kmallocAlignment - 1) / kmallocAlignment * kmallocAlignment

def kmallocImplEarly (heap : BootstrapHeap) (size : ℕ) : Option ℕ × BootstrapHeap :=
  let pos := alignUp heap.used
  if kmallocBootstrapHeapSize < pos ∨ kmallocBootstrapHeapSize - pos < size then (none, heap)
  else (some pos, ⟨pos + size, some pos, size, heap.used⟩)

def kfreeImplEarly (heap : BootstrapHeap) (p : Option ℕ) : BootstrapHeap :=
  if p ≠ heap.lastPtr then heap else ⟨heap.lastOldUsed, none, 0, 0⟩

def kreallocImplEarly (heap : BootstrapHeap) (p : Option ℕ) (size : ℕ) :
    Option ℕ × BootstrapHeap :=
  match p with
  | none => kmallocImplEarly heap size
  | some pos =>
    if size = 0 then (none, kfreeImplEarly heap p)
    else if p ≠ heap.lastPtr then (none, heap)
    else if kmallocBootstrapHeapSize - pos < size then (none, heap)
    else (p, { heap with lastSize := size, used := pos + size })

/-! ## Live blocks -/

/-- The heap and the blocks that its callers hold, each with the size asked for. -/
structure HeapState where
  heap : BootstrapHeap
  live : List Block

/-- A call; the pointer of a release or resize is null or that of a block. -/
inductive HeapCall
  | kmalloc (size : ℕ)
  | kfree (block : Option Block)
  | krealloc (block : Option Block) (size : ℕ)

/-- The blocks after a request for `size` bytes was answered. -/
def granted (size : ℕ) (live : List Block) : Option ℕ → List Block
  | some pos => ⟨pos, size⟩ :: live
  | none => live

/-- One call: the pointer it returns and the state behind it.  A resize to zero
bytes releases the block, one that is refused leaves it. -/
def HeapState.call (state : HeapState) : HeapCall → Option ℕ × HeapState
  | .kmalloc size =>
    let result := kmallocImplEarly state.heap size
    (result.1, ⟨result.2, granted size state.live result.1⟩)
  | .kfree none => (none, ⟨kfreeImplEarly state.heap none, state.live⟩)
  | .kfree (some block) =>
    (none, ⟨kfreeImplEarly state.heap (some block.address), state.live.erase block⟩)
  | .krealloc none size =>
    let result := kreallocImplEarly state.heap none size
    (result.1, ⟨result.2, granted size state.live result.1⟩)
  | .krealloc (some block) size =>
    let result := kreallocImplEarly state.heap (some block.address) size
    let rest := if size ≠ 0 ∧ result.1 = none then state.live else state.live.erase block
    (result.1, ⟨result.2, granted size rest result.1⟩)

def HeapState.start : HeapState := ⟨⟨0, none, 0, 0⟩, []⟩

/-- Only live blocks are released or resized. -/
def Legal (state : HeapState) : HeapCall → Prop
  | .kmalloc _ => True
  | .kfree block | .krealloc block _ => ∀ held ∈ block, held ∈ state.live

/-- No empty block is asked for, and a null pointer is released only while the last
allocation is remembered or nothing is in use. -/
def Careful (state : HeapState) : HeapCall → Prop
  | .kmalloc size | .krealloc none size => 0 < size
  | .kfree none => state.heap.lastPtr ≠ none ∨ state.heap.used = 0
  | .kfree (some _) | .krealloc (some _) _ => True

instance (state : HeapState) : DecidablePred (Legal state)
  | .kmalloc _ => isTrue trivial
  | .kfree block | .krealloc block _ =>
    inferInstanceAs (Decidable (∀ held ∈ block, held ∈ state.live))

instance (state : HeapState) : DecidablePred (Careful state)
  | .kmalloc size | .krealloc none size => inferInstanceAs (Decidable (0 < size))
  | .kfree none =>
    inferInstanceAs (Decidable (state.heap.lastPtr ≠ none ∨ state.heap.used = 0))
  | .kfree (some _) | .krealloc (some _) _ => isTrue trivial

/-- The blocks lie in the array, aligned and apart from each other. -/
structure Placed (live : List Block) : Prop where
  inside : ∀ block ∈ live, block.address + block.size ≤ kmallocBootstrapHeapSize
  aligned : ∀ block ∈ live, kmallocAlignment ∣ block.address
  separate : live.Pairwise Block.Separate

/-! ## The invariant -/

/-- Placed blocks, none of them empty, that end below a top. -/
structure Stacked (top : ℕ) (blocks : List Block) : Prop extends Placed blocks where
  nonempty : ∀ block ∈ blocks, 0 < block.size
  below : ∀ block ∈ blocks, block.address + block.size ≤ top

variable {top size : ℕ}

theorem Stacked.push {pos : ℕ} {blocks : List Block} (hblocks : Stacked top blocks)
    (hpos : top ≤ pos) (haligned : kmallocAlignment ∣ pos) (hsize : 0 < size)
    (hroom : pos + size ≤ kmallocBootstrapHeapSize) :
    Stacked (pos + size) (⟨pos, size⟩ :: blocks) where
  inside := List.forall_mem_cons.mpr ⟨hroom, hblocks.inside⟩
  aligned := List.forall_mem_cons.mpr ⟨haligned, hblocks.aligned⟩
  separate := List.pairwise_cons.mpr ⟨fun block hblock => Block.Separate.symm
    (Block.separate_of_le ((hblocks.below block hblock).trans hpos)), hblocks.separate⟩
  nonempty := List.forall_mem_cons.mpr ⟨hsize, hblocks.nonempty⟩
  below := List.forall_mem_cons.mpr ⟨le_refl _, fun block hblock =>
    ((hblocks.below block hblock).trans hpos).trans (Nat.le_add_right _ _)⟩

theorem Stacked.subperm {blocks fewer : List Block} (hblocks : Stacked top blocks)
    (hfewer : fewer.Subperm blocks) : Stacked top fewer where
  inside block hblock := hblocks.inside block (hfewer.subset hblock)
  aligned block hblock := hblocks.aligned block (hfewer.subset hblock)
  separate := by
    obtain ⟨list, hperm, hsublist⟩ := hfewer
    exact (hperm.pairwise_iff (fun hseparate => hseparate.symm)).mp
      (hblocks.separate.sublist hsublist)
  nonempty block hblock := hblocks.nonempty block (hfewer.subset hblock)
  below block hblock := hblocks.below block (hfewer.subset hblock)

/-- The block allocated last, while it is remembered, stands on the others, which end
where the top returns to when it is released. -/
structure Sound (state : HeapState) : Prop where
  stacked : Stacked state.heap.used state.live
  last : ∀ pos, state.heap.lastPtr = some pos → ∃ older,
    state.live.Perm (⟨pos, state.heap.lastSize⟩ :: older)
      ∧ Stacked state.heap.lastOldUsed older ∧ state.heap.lastOldUsed ≤ pos
  unremembered : state.heap.lastPtr = none → state.heap.lastOldUsed = 0

theorem sound_start : Sound .start where
  stacked := ⟨⟨nofun, nofun, .nil⟩, nofun, nofun⟩
  last := nofun
  unremembered _ := rfl

theorem sound_push {pos : ℕ} {older : List Block} (holder : Stacked top older) (hpos : top ≤ pos)
    (haligned : kmallocAlignment ∣ pos) (hsize : 0 < size)
    (hroom : pos + size ≤ kmallocBootstrapHeapSize) :
    Sound ⟨⟨pos + size, some pos, size, top⟩, ⟨pos, size⟩ :: older⟩ where
  stacked := holder.push hpos haligned hsize hroom
  last _ hlast := ⟨older, by rw [Option.some.inj hlast], holder, Option.some.inj hlast ▸ hpos⟩
  unremembered := nofun

section Calls

variable {state : HeapState} (hsound : Sound state)
include hsound

theorem Sound.kmalloc (hsize : 0 < size) : Sound (state.call (.kmalloc size)).2 := by
  unfold HeapState.call kmallocImplEarly
  dsimp only
  split
  · exact hsound
  · refine sound_push hsound.stacked ?_ (Nat.dvd_mul_left _ _) hsize (by omega)
    unfold alignUp kmallocAlignment
    omega

variable {block : Block} (hblock : block ∈ state.live)
include hblock

/-- A live block at the remembered address is the one allocated last. -/
theorem Sound.erase_last (hlast : some block.address = state.heap.lastPtr) :
    Stacked state.heap.lastOldUsed (state.live.erase block)
      ∧ state.heap.lastOldUsed ≤ block.address := by
  obtain ⟨older, hperm, holder, hpos⟩ := hsound.last _ hlast.symm
  have hsame : block = ⟨block.address, state.heap.lastSize⟩ := by
    refine (List.mem_cons.mp (hperm.mem_iff.mp hblock)).resolve_right (fun hmem => ?_)
    have hsize := holder.nonempty block hmem
    have hbelow := holder.below block hmem
    omega
  have hrest := hperm.erase block
  rw [← hsame, List.erase_cons_head] at hrest
  exact ⟨holder.subperm hrest.subperm, hpos⟩

theorem Sound.kfree :
    Sound ⟨kfreeImplEarly state.heap (some block.address), state.live.erase block⟩ := by
  unfold kfreeImplEarly
  split
  · rename_i hne
    refine ⟨hsound.stacked.subperm List.erase_sublist.subperm, fun pos hlast => ?_,
      hsound.unremembered⟩
    obtain ⟨older, hperm, holder, hpos⟩ := hsound.last pos hlast
    have hother : (⟨pos, state.heap.lastSize⟩ : Block) ≠ block := fun hsame =>
      hne (hlast.trans (congrArg (some ∘ Block.address) hsame)).symm
    refine ⟨older.erase block, ?_, holder.subperm List.erase_sublist.subperm, hpos⟩
    have hrest := hperm.erase block
    rwa [List.erase_cons_tail (by simpa using hother)] at hrest
  · rename_i hlast
    exact ⟨(hsound.erase_last hblock (not_not.mp hlast)).1, nofun, fun _ => rfl⟩

theorem Sound.krealloc (size : ℕ) : Sound (state.call (.krealloc (some block) size)).2 := by
  unfold HeapState.call kreallocImplEarly
  dsimp only
  split
  · rename_i hzero
    rw [if_neg (by simp [hzero])]
    exact hsound.kfree hblock
  · rename_i hsize
    split
    · rw [if_pos ⟨hsize, rfl⟩]
      exact hsound
    rename_i hlast
    split
    · rw [if_pos ⟨hsize, rfl⟩]
      exact hsound
    rename_i hroom
    rw [if_neg (by simp)]
    -- Resized in place, the block stands where it stood on the older ones.
    obtain ⟨hrest, hpos⟩ := hsound.erase_last hblock (not_not.mp hlast)
    have hpush := sound_push hrest hpos (hsound.stacked.aligned block hblock)
      (Nat.pos_of_ne_zero hsize) (by omega)
    rwa [not_not.mp hlast] at hpush

end Calls

theorem Sound.kfree_null {state : HeapState} (hsound : Sound state)
    (hcareful : state.heap.lastPtr ≠ none ∨ state.heap.used = 0) :
    Sound ⟨kfreeImplEarly state.heap none, state.live⟩ := by
  unfold kfreeImplEarly
  split
  · exact hsound
  · rename_i hlast
    have hnone := (not_not.mp hlast).symm
    have hstacked := hsound.stacked
    rw [hcareful.resolve_left (not_not.mpr hnone)] at hstacked
    rw [hsound.unremembered hnone]
    exact ⟨hstacked, nofun, fun _ => rfl⟩

/-- One step of a run. -/
theorem Sound.call {state : HeapState} (hsound : Sound state) {request : HeapCall}
    (hlegal : Legal state request) (hcareful : Careful state request) :
    Sound (state.call request).2 := by
  cases request with
  | kmalloc size => exact hsound.kmalloc hcareful
  | kfree block =>
    cases block with
    | none => exact hsound.kfree_null hcareful
    | some block => exact hsound.kfree (hlegal block rfl)
  | krealloc block size =>
    cases block with
    | none => exact hsound.kmalloc hcareful
    | some block => exact hsound.krealloc (hlegal block rfl) size

/-! ## Runs -/

/-- In every run that meets the conditions the live blocks stay placed, and a block
that is resized stays where it is. -/
theorem early_heap_placed {calls : List HeapCall}
    (hcalls : Along HeapState.call (fun state request => Legal state request ∧
      Careful state request) .start calls) :
    Placed (outputs HeapState.call .start calls).2.live ∧
      ∀ block size pos, ((outputs HeapState.call .start calls).2.call
        (.krealloc (some block) size)).1 = some pos → pos = block.address := by
  constructor
  · exact (invariant_along (fun state request hsound hmet => hsound.call hmet.1 hmet.2)
      sound_start hcalls).stacked.toPlaced
  intro block size pos hresult
  simp only [HeapState.call, kreallocImplEarly] at hresult
  split at hresult
  · cases hresult
  · split at hresult
    · cases hresult
    · split at hresult
      · cases hresult
      · exact (Option.some.inj hresult).symm

theorem early_heap_placed_two : Placed (outputs HeapState.call .start
    [.kmalloc 5, .kmalloc 8, .kfree (some ⟨8, 8⟩), .krealloc (some ⟨0, 5⟩) 6]).2.live :=
  (early_heap_placed (by decide)).1

/-- Releasing a null pointer after the last block takes the bytes of the block before
it back as well, and the next block overlaps it. -/
theorem null_release_overlaps :
    Along HeapState.call Legal .start
      [.kmalloc 8, .kmalloc 8, .kfree (some ⟨8, 8⟩), .kfree none, .kmalloc 8] ∧
    ¬Placed (outputs HeapState.call .start
      [.kmalloc 8, .kmalloc 8, .kfree (some ⟨8, 8⟩), .kfree none, .kmalloc 8]).2.live := by
  have hlive : (outputs HeapState.call .start
      [.kmalloc 8, .kmalloc 8, .kfree (some ⟨8, 8⟩), .kfree none, .kmalloc 8]).2.live
        = [⟨0, 8⟩, ⟨0, 8⟩] := by decide
  refine ⟨by decide, fun hplaced => ?_⟩
  rw [hlive] at hplaced
  have hseparate := (List.pairwise_cons.mp hplaced.separate).1 ⟨0, 8⟩ List.mem_cons_self
  exact hseparate 0 ⟨by decide, by decide⟩ ⟨by decide, by decide⟩

end FacetOS.Kernel
