import FacetOS.Core.LittleEndian

/-!
# Byte-addressed memory with allocated blocks

A flat memory, the blocks that are live in it, and an allocator about which
nothing is known except that it returns blocks separate from the live ones.  A
computation is described by its frame: the one target block it may overwrite and
the blocks it allocates.  A fact about the result is *settled* on a target and
some fresh blocks when no change outside of them can invalidate it.
-/

namespace FacetOS.ByteMemory

open LittleEndian

abbrev Memory := ℕ → UInt8

/-- The `size` bytes from `address` on. -/
def load (memory : Memory) (address size : ℕ) : List UInt8 :=
  (List.range size).map fun index => memory (address + index)

/-- The memory after `bytes` have been written from `address` on. -/
def store (memory : Memory) (address : ℕ) (bytes : List UInt8) : Memory :=
  fun position =>
    if address ≤ position then (bytes[position - address]?).getD (memory position)
    else memory position

/-- The little-endian number in `size` bytes of memory. -/
def loadNat (memory : Memory) (address size : ℕ) : ℕ :=
  leValue (load memory address size)

def storeNat (memory : Memory) (address size value : ℕ) : Memory :=
  store memory address (leBytes size value)

/-- A block of consecutive addresses. -/
structure Block where
  address : ℕ
  size : ℕ
  deriving DecidableEq

def Block.Covers (block : Block) (position : ℕ) : Prop :=
  block.address ≤ position ∧ position < block.address + block.size

/-- Some block of the list covers the position. -/
def Covered (blocks : List Block) (position : ℕ) : Prop :=
  ∃ block ∈ blocks, block.Covers position

/-- The two blocks share no address. -/
def Block.Separate (left right : Block) : Prop :=
  ∀ position, left.Covers position → ¬ right.Covers position

/-- Every address of the inner block belongs to the outer one. -/
def Block.Within (inner outer : Block) : Prop :=
  ∀ position, inner.Covers position → outer.Covers position

variable {target outer inner block left right : Block} {property next : Memory → Prop}
  {before after first second third : Heap} {fresh targets live : List Block} {position : ℕ}

theorem Block.Separate.symm (hseparate : left.Separate right) :
    right.Separate left :=
  fun position hright hleft => hseparate position hleft hright

theorem Block.within_of_le (hlower : outer.address ≤ inner.address)
    (hupper : inner.address + inner.size ≤ outer.address + outer.size) :
    inner.Within outer := by
  rintro position ⟨hfirst, hlast⟩
  exact ⟨by omega, by omega⟩

/-- A part of what lies between `first` and the end of a block. -/
theorem Block.part_within {address first offset extent size : ℕ} (hfirst : first ≤ offset)
    (hsize : offset + extent ≤ size) :
    Block.Within ⟨address + offset, extent⟩ ⟨address + first, size - first⟩ := by
  apply Block.within_of_le
  · exact Nat.add_le_add_left hfirst address
  · dsimp only
    omega

theorem Block.separate_of_le (hle : left.address + left.size ≤ right.address) :
    left.Separate right := by
  rintro position ⟨-, hleft⟩ ⟨hright, -⟩
  omega

/-! ## Arrays of objects -/

section Elements

variable {data index count stride : ℕ}

/-- Of the elements from number `index` on, the first one. -/
theorem Block.element_within :
    Block.Within ⟨data + index * stride, stride⟩ ⟨data + index * stride, (count + 1) * stride⟩ := by
  apply Block.within_of_le
  · exact le_rfl
  · rw [Nat.add_mul, Nat.one_mul]
    exact Nat.add_le_add_left (Nat.le_add_left _ _) _

/-- Of the elements from number `index` on, the others. -/
theorem Block.later_within :
    Block.Within ⟨data + (index + 1) * stride, count * stride⟩
      ⟨data + index * stride, (count + 1) * stride⟩ := by
  have hnext : data + (index + 1) * stride = data + index * stride + stride := by ring
  have hwhole : (count + 1) * stride = stride + count * stride := by ring
  apply Block.within_of_le
  · dsimp only
    omega
  · dsimp only
    omega

theorem Block.element_separate :
    Block.Separate ⟨data + index * stride, stride⟩
      ⟨data + (index + 1) * stride, count * stride⟩ := by
  apply Block.separate_of_le
  rw [Nat.add_mul, Nat.one_mul, Nat.add_assoc]

end Elements

/-! ## Loads and stores -/

section Access

variable {memory other : Memory} {address size : ℕ} {bytes : List UInt8}

@[simp]
theorem length_load : (load memory address size).length = size := by
  simp [load]

section

variable (hagree : ∀ position, Block.Covers ⟨address, size⟩ position → memory position = other
    position)
include hagree

/-- A load reads its own block and nothing else. -/
theorem load_congr :
    load memory address size = load other address size := by
  apply List.map_congr_left
  intro index hindex
  have hlt := List.mem_range.mp hindex
  exact hagree _ ⟨Nat.le_add_right _ _, Nat.add_lt_add_left hlt _⟩

theorem loadNat_congr :
    loadNat memory address size = loadNat other address size := by
  rw [loadNat, loadNat, load_congr hagree]

end

/-- A store changes its own block and nothing else. -/
theorem store_outside (houtside : ¬ Block.Covers ⟨address, bytes.length⟩ position) :
    store memory address bytes position = memory position := by
  unfold store
  split
  · rename_i hle
    have hlast : address + bytes.length ≤ position := by
      by_contra hlt
      exact houtside ⟨hle, by simp only; omega⟩
    rw [List.getElem?_eq_none (by omega), Option.getD_none]
  · rfl

/-- Inside its block a store hides the old contents. -/
theorem store_inside (hinside : Block.Covers ⟨address, bytes.length⟩ position) :
    store memory address bytes position = store other address bytes position := by
  obtain ⟨hle, hlt⟩ := hinside
  have hindex : position - address < bytes.length := by
    dsimp only at hle hlt
    omega
  simp [store, hle, hindex]

/-- Stores to separate blocks commute. -/
theorem store_comm {written : List UInt8}
    (hseparate : Block.Separate ⟨address, bytes.length⟩ ⟨position, written.length⟩) :
    store (store memory address bytes) position written =
      store (store memory position written) address bytes := by
  funext point
  by_cases hfirst : Block.Covers ⟨address, bytes.length⟩ point
  · rw [store_outside (hseparate point hfirst)]
    exact store_inside hfirst
  · rw [store_outside hfirst]
    by_cases hsecond : Block.Covers ⟨position, written.length⟩ point
    · exact store_inside hsecond
    · rw [store_outside hsecond, store_outside hsecond, store_outside hfirst]

theorem load_store (memory : Memory) (address : ℕ) (bytes : List UInt8) :
    load (store memory address bytes) address bytes.length = bytes := by
  apply List.ext_getElem?
  intro index
  by_cases hindex : index < bytes.length
  · simp [load, store, hindex]
  · rw [List.getElem?_eq_none (by simpa using hindex),
      List.getElem?_eq_none (by simpa using hindex)]

theorem loadNat_storeNat {value : ℕ} (hvalue : value < 256 ^ size) :
    loadNat (storeNat memory address size value) address size = value := by
  have hload := load_store memory address (leBytes size value)
  rw [length_leBytes] at hload
  rw [loadNat, storeNat, hload, leValue_leBytes_of_lt hvalue]

theorem storeNat_outside {value : ℕ} (houtside : ¬ Block.Covers ⟨address, size⟩ position) :
    storeNat memory address size value position = memory position := by
  apply store_outside
  rwa [length_leBytes]

end Access

/-! ## Allocation -/

/-- An allocator picks an address for a request, given the live blocks, or fails.
It never returns null and never a block that overlaps a live one. -/
structure Allocator where
  place : List Block → ℕ → Option ℕ
  place_pos : ∀ live size address, place live size = some address → 0 < address
  place_le : ∀ live size address, place live size = some address →
    address + size ≤ 2 ^ 64
  place_separate : ∀ live size address, place live size = some address →
    ∀ block ∈ live, Block.Separate ⟨address, size⟩ block

/-- The first address behind all blocks. -/
def firstFree (live : List Block) : ℕ :=
  (live.map fun block => block.address + block.size).foldr max 1

theorem le_firstFree (hblock : block ∈ live) :
    block.address + block.size ≤ firstFree live := by
  induction live with
  | nil => cases hblock
  | cons first rest ih =>
    rcases List.mem_cons.mp hblock with rfl | hrest
    · exact le_max_left _ _
    · exact (ih hrest).trans (le_max_right _ _)

theorem firstFree_pos (live : List Block) : 0 < firstFree live := by
  induction live with
  | nil => exact Nat.one_pos
  | cons first rest ih => exact ih.trans_le (le_max_right _ _)

/-- The allocator that places every block behind all live ones. -/
def Allocator.bump : Allocator where
  place live size := if firstFree live + size ≤ 2 ^ 64 then some (firstFree live) else none
  place_pos := by
    intro live size address hplace
    obtain ⟨-, ⟨⟩⟩ := Option.ite_none_right_eq_some.mp hplace
    exact firstFree_pos live
  place_le := by
    intro live size address hplace
    obtain ⟨hle, ⟨⟩⟩ := Option.ite_none_right_eq_some.mp hplace
    exact hle
  place_separate := by
    intro live size address hplace block hblock
    obtain ⟨-, ⟨⟩⟩ := Option.ite_none_right_eq_some.mp hplace
    exact (Block.separate_of_le (le_firstFree hblock)).symm

/-- The memory together with the blocks that are live in it. -/
structure Heap where
  memory : Memory
  live : List Block

/-- Some live block contains the target. -/
def Owned (target : Block) (live : List Block) : Prop :=
  ∃ block ∈ live, target.Within block

theorem Owned.append (howned : Owned target live) (fresh : List Block) :
    Owned target (fresh ++ live) := by
  obtain ⟨block, hblock, hwithin⟩ := howned
  exact ⟨block, List.mem_append_right _ hblock, hwithin⟩

theorem Owned.within (howned : Owned outer live) (hwithin : inner.Within outer) :
    Owned inner live := by
  obtain ⟨block, hblock, houter⟩ := howned
  exact ⟨block, hblock, fun position hposition => houter position (hwithin position hposition)⟩

/-! ## Frames -/

/-- `after` differs from `before` at most inside the `targets` and inside the
`fresh` blocks, which were allocated in between. -/
structure Frame (targets : List Block) (before after : Heap) (fresh : List Block) : Prop where
  live_eq : after.live = fresh ++ before.live
  separate : ∀ block ∈ fresh, ∀ other ∈ before.live, block.Separate other
  agree : ∀ position, ¬ Covered targets position → ¬ Covered fresh position →
    after.memory position = before.memory position

theorem Frame.refl (targets : List Block) (heap : Heap) : Frame targets heap heap [] where
  live_eq := rfl
  separate := by simp
  agree _ _ _ := rfl

theorem covered_singleton :
    Covered [block] position ↔ block.Covers position := by
  simp [Covered]

theorem covered_append {left right : List Block} :
    Covered (left ++ right) position ↔ Covered left position ∨ Covered right position := by
  simp only [Covered, List.mem_append, or_and_right, exists_or]

/-- Overwriting bytes of the target allocates nothing. -/
theorem Frame.of_agree (hlive : after.live = before.live)
    (hagree : ∀ position, ¬ target.Covers position →
      after.memory position = before.memory position) :
    Frame [target] before after [] where
  live_eq := hlive
  separate := by simp
  agree position hposition _ :=
    hagree position fun hcovers => hposition (covered_singleton.mpr hcovers)

theorem Frame.mono {more : List Block} (hframe : Frame targets before after fresh)
    (hmore : ∀ position, Covered targets position → Covered more position) :
    Frame more before after fresh where
  live_eq := hframe.live_eq
  separate := hframe.separate
  agree position hposition hfresh :=
    hframe.agree position (fun hcovered => hposition (hmore position hcovered)) hfresh

theorem Frame.within (hframe : Frame [inner] before after fresh) (hwithin : inner.Within outer) :
    Frame [outer] before after fresh :=
  hframe.mono fun position hcovered =>
    covered_singleton.mpr (hwithin position (covered_singleton.mp hcovered))

/-- A computation may go on in the targets and in the fresh blocks. -/
theorem Frame.trans {more later : List Block} (hfirst : Frame targets first second fresh)
    (hsecond : Frame more second third later)
    (hmore : ∀ position, Covered more position →
      Covered targets position ∨ Covered fresh position) :
    Frame targets first third (later ++ fresh) where
  live_eq := by rw [hsecond.live_eq, hfirst.live_eq, List.append_assoc]
  separate := by
    intro block hblock other hother
    rcases List.mem_append.mp hblock with hlater | hfresh
    · apply hsecond.separate block hlater other
      rw [hfirst.live_eq]
      exact List.mem_append_right _ hother
    · exact hfirst.separate block hfresh other hother
  agree := by
    intro position hposition hnot
    rw [covered_append, not_or] at hnot
    have hoff : ¬Covered more position := fun hcovered =>
      (hmore position hcovered).elim hposition hnot.2
    exact (hsecond.agree position hoff hnot.1).trans (hfirst.agree position hposition hnot.2)

/-- Nothing is freed. -/
theorem Frame.owned (hframe : Frame targets before after fresh)
    (howned : Owned target before.live) : Owned target after.live := by
  rw [hframe.live_eq]
  exact howned.append fresh

/-- Fresh blocks are separate from every target that was owned before. -/
theorem Frame.fresh_separate (hframe : Frame targets before after fresh) (hblock : block ∈ fresh)
    (howned : Owned target before.live) : block.Separate target := by
  obtain ⟨owner, howner, hwithin⟩ := howned
  intro position hcovers htarget
  exact hframe.separate block hblock owner howner position hcovers (hwithin position htarget)

/-- No change outside the target and the fresh blocks invalidates the property. -/
def Settled (property : Memory → Prop) (target : Block) (fresh : List Block)
    (memory : Memory) : Prop :=
  ∀ other : Memory, (∀ position, target.Covers position ∨ Covered fresh position →
    other position = memory position) → property other

theorem Settled.holds {memory : Memory} (hsettled : Settled property target fresh memory) :
    property memory :=
  hsettled memory fun _ _ => rfl

theorem Settled.mono {more : List Block} {memory : Memory}
    (hsettled : Settled property inner fresh memory) (hwithin : inner.Within outer)
    (hfresh : ∀ position, Covered fresh position → Covered more position) :
    Settled property outer more memory := by
  intro other hagree
  apply hsettled
  rintro position (hposition | hposition)
  · exact hagree position (.inl (hwithin position hposition))
  · exact hagree position (.inr (hfresh position hposition))

/-- A settled property survives a later computation on separate targets. -/
theorem Settled.frame {new : List Block} (hsettled : Settled property target fresh before.memory)
    (hframe : Frame targets before after new)
    (hseparate : ∀ later ∈ targets, target.Separate later)
    (hfresh : ∀ block ∈ fresh, block ∈ before.live ∧
      ∀ later ∈ targets, block.Separate later) (howned : Owned target before.live) :
    Settled property target fresh after.memory := by
  intro other hagree
  apply hsettled
  intro position hposition
  rw [hagree position hposition]
  have hoffNew (block : Block) (hlive : block ∈ before.live)
      (hcovers : block.Covers position) : ¬ Covered new position := by
    rintro ⟨added, hadded, hcover⟩
    exact hframe.separate added hadded block hlive position hcover hcovers
  rcases hposition with htarget | ⟨block, hblock, hcovers⟩
  · obtain ⟨owner, howner, hwithin⟩ := howned
    apply hframe.agree position
    · rintro ⟨later, hlater, hcover⟩
      exact hseparate later hlater position htarget hcover
    · exact hoffNew owner howner (hwithin position htarget)
  · obtain ⟨hlive, hblockLater⟩ := hfresh block hblock
    apply hframe.agree position
    · rintro ⟨later, hlater, hcover⟩
      exact hblockLater later hlater position hcovers hcover
    · exact hoffNew block hlive hcovers

theorem Block.firstWord_within (address : ℕ) :
    Block.Within ⟨address, 8⟩ ⟨address, 16⟩ :=
  Block.within_of_le le_rfl (Nat.add_le_add_left (show 8 ≤ 16 by decide) _)

theorem Block.secondWord_within (address : ℕ) :
    Block.Within ⟨address + 8, 8⟩ ⟨address, 16⟩ :=
  Block.within_of_le (Nat.le_add_right _ _) (Nat.le_of_eq (Nat.add_assoc _ _ _))

/-- Two 64-bit words stored side by side. -/
theorem settled_storeNat_pair (memory : Memory) (address : ℕ) {first second : ℕ}
    (hfirst : first < 2 ^ 64) (hsecond : second < 2 ^ 64) :
    Settled (fun memory => loadNat memory address 8 = first ∧
        loadNat memory (address + 8) 8 = second) ⟨address, 16⟩ []
      (storeNat (storeNat memory address 8 first) (address + 8) 8 second) := by
  intro other hagree
  have hseparate : Block.Separate ⟨address, 8⟩ ⟨address + 8, 8⟩ :=
    Block.separate_of_le le_rfl
  constructor
  · rw [loadNat_congr fun position hcovers =>
      (hagree position (.inl (Block.firstWord_within address position hcovers))).trans
        (storeNat_outside (hseparate position hcovers))]
    exact loadNat_storeNat hfirst
  · rw [loadNat_congr fun position hcovers =>
      hagree position (.inl (Block.secondWord_within address position hcovers))]
    exact loadNat_storeNat hsecond

theorem storeNat_pair_outside {memory : Memory} {address first second : ℕ}
    (houtside : ¬ Block.Covers ⟨address, 16⟩ position) :
    storeNat (storeNat memory address 8 first) (address + 8) 8 second position =
      memory position := by
  rw [storeNat_outside fun hcovers => houtside (Block.secondWord_within address position hcovers),
    storeNat_outside fun hcovers => houtside (Block.firstWord_within address position hcovers)]

/-! ## Filled targets -/

/-- A computation from `before` to `after` has changed nothing but its target and blocks
it allocated, and has stored something with the property into these blocks and into the
part `kept` of the target. -/
def Keeps (target kept : Block) (before after : Heap) (property : Memory → Prop) : Prop :=
  ∃ fresh, Frame [target] before after fresh ∧ Settled property kept fresh after.memory

/-- The computation has used its whole target. -/
def Filled (target : Block) : Heap → Heap → (Memory → Prop) → Prop :=
  Keeps target target

section Keeping

variable {kept whole leftKept rightKept : Block}

theorem Keeps.holds (hkeeps : Keeps target kept before after property) :
    property after.memory := by
  obtain ⟨fresh, -, hsettled⟩ := hkeeps
  exact hsettled.holds

theorem Keeps.imp {weaker : Memory → Prop} (hkeeps : Keeps target kept before after property)
    (himp : ∀ memory, property memory → weaker memory) :
    Keeps target kept before after weaker := by
  obtain ⟨fresh, hframe, hsettled⟩ := hkeeps
  exact ⟨fresh, hframe, fun other hagree => himp other (hsettled other hagree)⟩

theorem Keeps.mono (hkeeps : Keeps target kept before after property)
    (htarget : target.Within outer) (hkept : kept.Within whole) :
    Keeps outer whole before after property := by
  obtain ⟨fresh, hframe, hsettled⟩ := hkeeps
  exact ⟨fresh, hframe.within htarget, hsettled.mono hkept fun _ hfresh => hfresh⟩

theorem Keeps.refl (target kept : Block) (heap : Heap) :
    Keeps target kept heap heap (fun _ => True) :=
  ⟨[], Frame.refl _ heap, fun _ _ => trivial⟩

/-- Owned targets stay owned. -/
theorem Keeps.owned {other : Block} (hkeeps : Keeps target kept before after property)
    (howned : Owned other before.live) : Owned other after.live := by
  obtain ⟨fresh, hframe, -⟩ := hkeeps
  exact hframe.owned howned

/-- What is settled stays settled when separate targets are changed afterwards. -/
theorem Settled.after_frame {later new : List Block}
    (hsettled : Settled property target fresh second.memory)
    (hfirst : Frame targets first second fresh) (hsecond : Frame later second third new)
    (hseparate : ∀ other ∈ later, target.Separate other) (howned : Owned target first.live)
    (hlater : ∀ other ∈ later, Owned other first.live) :
    Settled property target fresh third.memory := by
  apply hsettled.frame hsecond hseparate _ (hfirst.owned howned)
  intro block hblock
  constructor
  · rw [hfirst.live_eq]
    exact List.mem_append_left _ hblock
  · intro other hother
    exact hfirst.fresh_separate hblock (hlater other hother)

/-- Two parts of one target, used one after the other.  The second one may overwrite what
the first one has stored, but not what is kept of it. -/
theorem Keeps.seq (hfirst : Keeps left leftKept first second property)
    (hsecond : Keeps right rightKept second third next) (hleft : left.Within outer)
    (hright : right.Within outer) (hleftKept : leftKept.Within whole)
    (hrightKept : rightKept.Within whole) (hwhole : whole.Within outer)
    (hseparate : leftKept.Separate right) (howned : Owned outer first.live) :
    Keeps outer whole first third (fun memory => property memory ∧ next memory) := by
  obtain ⟨fresh, hframe, hsettled⟩ := hfirst
  obtain ⟨later, hnext, hlast⟩ := hsecond
  have hkept : Settled property leftKept fresh third.memory :=
    hsettled.after_frame hframe hnext (List.forall_mem_singleton.mpr hseparate)
      ((howned.within hwhole).within hleftKept)
      (List.forall_mem_singleton.mpr (howned.within hright))
  refine ⟨later ++ fresh, (hframe.within hleft).trans (hnext.within hright) fun _ => .inl, ?_⟩
  intro other hagree
  constructor
  · exact (hkept.mono hleftKept fun position hposition =>
      covered_append.mpr (.inr hposition)) other hagree
  · exact (hlast.mono hrightKept fun position hposition =>
      covered_append.mpr (.inl hposition)) other hagree

end Keeping

/-- A target that is filled twice. -/
theorem Filled.overwrite (hfirst : Filled target first second property)
    (hsecond : Filled target second third next) : Filled target first third next := by
  obtain ⟨fresh, hframe, -⟩ := hfirst
  obtain ⟨later, hnext, hlast⟩ := hsecond
  exact ⟨later ++ fresh, hframe.trans hnext fun _ => .inl, hlast.mono (fun _ hcovers => hcovers)
    fun position hposition => covered_append.mpr (.inl hposition)⟩

/-- A target that was made to point to a new block, which is filled afterwards. -/
theorem Filled.nest (hframe : Frame [target] first second [block])
    (hsettled : Settled property target [] second.memory)
    (hsecond : Filled block second third next) (howned : Owned target first.live) :
    Filled target first third (fun memory => property memory ∧ next memory) := by
  have hseparate : target.Separate block :=
    (hframe.fresh_separate List.mem_cons_self howned).symm
  obtain ⟨later, hnext, hlast⟩ := hsecond
  have hkept : Settled property target [] third.memory :=
    hsettled.frame hnext (List.forall_mem_singleton.mpr hseparate) (by simp)
      (hframe.owned howned)
  refine ⟨later ++ [block], hframe.trans hnext fun _ => .inr, ?_⟩
  intro other hagree
  constructor
  · apply hkept other
    rintro position (htarget | ⟨added, hadded, -⟩)
    · exact hagree position (.inl htarget)
    · simp at hadded
  · apply hlast other
    rintro position (hcovers | hlater)
    · exact hagree position (.inr (covered_append.mpr (.inr (covered_singleton.mpr hcovers))))
    · exact hagree position (.inr (covered_append.mpr (.inl hlater)))

/-- Several separate targets, each with what it is filled with. -/
def FilledAll (parts : List (Block × (Memory → Prop))) (before after : Heap) : Prop :=
  ∃ fresh, Frame (parts.map Prod.fst) before after fresh ∧
    ∀ part ∈ parts, Settled part.2 part.1 fresh after.memory

theorem FilledAll.nil (heap : Heap) : FilledAll [] heap heap :=
  ⟨[], Frame.refl _ heap, by simp⟩

variable {parts : List (Block × (Memory → Prop))}

theorem FilledAll.holds (hfilled : FilledAll parts before after) {part : Block × (Memory → Prop)}
    (hpart : part ∈ parts) : part.2 after.memory := by
  obtain ⟨fresh, -, hsettled⟩ := hfilled
  exact (hsettled part hpart).holds

theorem FilledAll.cons
    (hfirst : Filled target first second property) (hrest : FilledAll parts second third)
    (hseparate : ∀ part ∈ parts, target.Separate part.1) (howned : Owned target first.live)
    (hothers : ∀ part ∈ parts, Owned part.1 first.live) :
    FilledAll ((target, property) :: parts) first third := by
  obtain ⟨fresh, hframe, hsettled⟩ := hfirst
  obtain ⟨later, hnext, hlast⟩ := hrest
  refine ⟨later ++ fresh, ?_, ?_⟩
  · refine (hframe.mono ?_).trans hnext ?_
    · rintro position ⟨block, hblock, hcovers⟩
      rw [List.mem_singleton.mp hblock] at hcovers
      exact ⟨target, List.mem_cons_self, hcovers⟩
    · rintro position ⟨block, hblock, hcovers⟩
      exact .inl ⟨block, List.mem_cons_of_mem _ hblock, hcovers⟩
  · intro part hpart
    rcases List.mem_cons.mp hpart with rfl | hmem
    · have hkept : Settled property target fresh third.memory :=
        hsettled.after_frame hframe hnext (List.forall_mem_map.mpr hseparate) howned
          (List.forall_mem_map.mpr hothers)
      exact hkept.mono (fun _ hcovers => hcovers) fun position hposition =>
        covered_append.mpr (.inr hposition)
    · exact (hlast part hmem).mono (fun _ hcovers => hcovers) fun position hposition =>
        covered_append.mpr (.inl hposition)

theorem take_load {memory : Memory} {address size room : ℕ} :
    (load memory address size).take room = load memory address (min room size) := by
  rw [load, ← List.map_take, List.take_range, load]

/-- Storing bytes of which only the first ones are kept. -/
theorem Keeps.of_store (heap : Heap) (address room : ℕ) {limit : ℕ} {bytes : List UInt8}
    (hlimit : bytes.length ≤ limit) :
    Keeps ⟨address, limit⟩ ⟨address, room⟩ heap
      { heap with memory := store heap.memory address bytes }
      (fun memory => (load memory address bytes.length).take room = bytes.take room) := by
  have hframe : Frame [⟨address, bytes.length⟩] heap
      { heap with memory := store heap.memory address bytes } [] :=
    Frame.of_agree rfl fun position houtside => store_outside houtside
  refine ⟨[], hframe.within (Block.within_of_le le_rfl (Nat.add_le_add_left hlimit _)), ?_⟩
  intro other hagree
  have hfront : Block.Within ⟨address, min room bytes.length⟩ ⟨address, room⟩ :=
    Block.within_of_le le_rfl (Nat.add_le_add_left (Nat.min_le_left _ _) _)
  rw [take_load, load_congr fun position hcovers =>
    hagree position (.inl (hfront position hcovers)), ← take_load, load_store]

/-- Storing bytes over the whole target. -/
theorem Filled.of_store (heap : Heap) (address : ℕ) (bytes : List UInt8) :
    Filled ⟨address, bytes.length⟩ heap
      { heap with memory := store heap.memory address bytes }
      (fun memory => load memory address bytes.length = bytes) := by
  refine ⟨[], Frame.of_agree rfl fun position houtside => store_outside houtside, ?_⟩
  intro other hagree
  rw [load_congr fun position hcovers => hagree position (.inl hcovers)]
  exact load_store heap.memory address bytes

end FacetOS.ByteMemory
