import FacetOS.Core.Memory

/-!
# Copy loops in byte memory

Copying and clearing byte by byte, the placement of file segments, and the
memory that a list of such placements leaves: at each address the last segment
that covers it decides.
-/

namespace FacetOS.ByteMemory

open LittleEndian

def copyBytes (memory : Memory) (destination source : ℕ) : ℕ → Memory
  | 0 => memory
  | count + 1 =>
    copyBytes (Function.update memory destination (memory source)) (destination + 1) (source + 1)
      count

def zeroBytes (memory : Memory) (destination : ℕ) : ℕ → Memory
  | 0 => memory
  | count + 1 => zeroBytes (Function.update memory destination 0) (destination + 1) count

section Loops

variable {memory : Memory} {destination source count position : ℕ}

theorem copyBytes_outside (houtside : ¬Block.Covers ⟨destination, count⟩ position) :
    copyBytes memory destination source count position = memory position := by
  induction count generalizing memory destination source with
  | zero => rfl
  | succ count ih =>
    unfold Block.Covers at houtside
    dsimp only at houtside
    rw [copyBytes, ih (by unfold Block.Covers; dsimp only; omega)]
    exact Function.update_of_ne (by omega) _ _

/-- Separate from its source, the destination receives the source's bytes. -/
theorem copyBytes_inside (hseparate : Block.Separate ⟨destination, count⟩ ⟨source, count⟩)
    (hinside : Block.Covers ⟨destination, count⟩ position) :
    copyBytes memory destination source count position
      = memory (source + (position - destination)) := by
  induction count generalizing memory destination source with
  | zero => exact absurd hinside (by unfold Block.Covers; dsimp only; omega)
  | succ count ih =>
    obtain ⟨hle, hlt⟩ := hinside
    dsimp only at hle hlt
    rw [copyBytes]
    by_cases hfirst : position = destination
    · subst hfirst
      rw [copyBytes_outside (by unfold Block.Covers; dsimp only; omega), Function.update_self,
        Nat.sub_self, Nat.add_zero]
    · have hshorter : Block.Separate ⟨destination + 1, count⟩ ⟨source + 1, count⟩ := by
        intro other hleft hright
        unfold Block.Covers at hleft hright
        dsimp only at hleft hright
        exact hseparate other ⟨by dsimp only; omega, by dsimp only; omega⟩
          ⟨by dsimp only; omega, by dsimp only; omega⟩
      rw [ih hshorter ⟨by dsimp only; omega, by dsimp only; omega⟩, Function.update_of_ne]
      · congr 1
        omega
      · intro habsurd
        exact hseparate destination ⟨le_rfl, by dsimp only; omega⟩
          ⟨by dsimp only; omega, by dsimp only; omega⟩

theorem zeroBytes_apply :
    zeroBytes memory destination count position
      = if destination ≤ position ∧ position < destination + count then 0 else memory position := by
  induction count generalizing memory destination with
  | zero => exact (if_neg (by omega)).symm
  | succ count ih =>
    rw [zeroBytes, ih]
    by_cases hfirst : position = destination
    · subst hfirst
      rw [if_neg (by omega), Function.update_self, if_pos (by omega)]
    · rw [Function.update_of_ne hfirst]
      congr 1
      apply propext
      omega

/-- Storing what has been loaded elsewhere copies it. -/
theorem storeNat_loadNat_apply (memory : Memory) (destination source width position : ℕ) :
    storeNat memory destination width (loadNat memory source width) position
      = if destination ≤ position ∧ position < destination + width
        then memory (source + (position - destination)) else memory position := by
  have hbytes : leBytes width (leValue (load memory source width)) = load memory source width := by
    have hround := leBytes_leValue (load memory source width)
    rwa [length_load] at hround
  rw [storeNat, loadNat, hbytes]
  split_ifs with hcovers
  · have hindex : position - destination < width := by omega
    simp [store, load, hcovers.1, hindex]
  · apply store_outside
    rw [length_load]
    exact hcovers

end Loops

/-! ## Segments -/

/-- A part of an image and the memory it is to fill. -/
structure Segment where
  offset : ℕ
  paddr : ℕ
  filesz : ℕ
  memsz : ℕ
  deriving DecidableEq, Repr

namespace Segment

def Covers (segment : Segment) (position : ℕ) : Prop :=
  segment.paddr ≤ position ∧ position < segment.paddr + segment.memsz

instance (segment : Segment) (position : ℕ) : Decidable (segment.Covers position) :=
  inferInstanceAs (Decidable (_ ∧ _))

/-- The byte that the segment stores at a position. -/
def byte (memory : Memory) (image : ℕ) (segment : Segment) (position : ℕ) : UInt8 :=
  if position < segment.paddr + segment.filesz
  then memory (image + segment.offset + (position - segment.paddr)) else 0

def place (image : ℕ) (memory : Memory) (segment : Segment) : Memory :=
  zeroBytes (copyBytes memory segment.paddr (image + segment.offset) segment.filesz)
    (segment.paddr + segment.filesz) (segment.memsz - segment.filesz)

/-- The segment lies in an image of this size and away from its bytes. -/
structure Sound (image size : ℕ) (segment : Segment) : Prop where
  filesz_le : segment.filesz ≤ segment.memsz
  within : segment.offset + segment.filesz ≤ size
  apart : ∀ position, segment.Covers position → ¬Block.Covers ⟨image, size⟩ position

variable {image size position : ℕ} {memory before : Memory} {segment : Segment}
  {segments earlier later : List Segment}

theorem place_apply (hsound : segment.Sound image size) :
    place image memory segment position
      = if segment.Covers position then segment.byte memory image position
        else memory position := by
  have hfile := hsound.filesz_le
  have hwithin := hsound.within
  rw [place, zeroBytes_apply]
  by_cases hcovers : segment.Covers position
  · rw [if_pos hcovers, byte]
    obtain ⟨hfrom, hto⟩ := hcovers
    by_cases hcopied : position < segment.paddr + segment.filesz
    · rw [if_neg (by omega), if_pos hcopied]
      refine copyBytes_inside ?_ ⟨hfrom, hcopied⟩
      intro other hleft hright
      unfold Block.Covers at hleft hright
      dsimp only at hleft hright
      exact hsound.apart other ⟨hleft.1, by omega⟩ ⟨by dsimp only; omega, by dsimp only; omega⟩
    · rw [if_pos (by omega), if_neg hcopied]
  · rw [if_neg hcovers]
    unfold Covers at hcovers
    rw [if_neg (by omega)]
    exact copyBytes_outside (by unfold Block.Covers; dsimp only; omega)

/-- The image itself stays as it is. -/
theorem place_image (hsound : segment.Sound image size)
    (hposition : Block.Covers ⟨image, size⟩ position) :
    place image memory segment position = memory position := by
  rw [place_apply hsound, if_neg fun hcovers => hsound.apart position hcovers hposition]

theorem byte_congr (hsound : segment.Sound image size) (hcovers : segment.Covers position)
    (hagree : ∀ other, Block.Covers ⟨image, size⟩ other → memory other = before other) :
    segment.byte memory image position = segment.byte before image position := by
  have hwithin := hsound.within
  obtain ⟨hfrom, -⟩ := hcovers
  unfold byte
  split_ifs with hcopied
  · exact hagree _ ⟨by dsimp only; omega, by dsimp only; omega⟩
  · rfl

variable (hsound : ∀ segment ∈ segments, segment.Sound image size)
include hsound

theorem foldl_place_image (hposition : Block.Covers ⟨image, size⟩ position) :
    segments.foldl (place image) memory position = memory position := by
  induction segments generalizing memory with
  | nil => rfl
  | cons segment segments ih =>
    rw [List.foldl_cons, ih fun other hother => hsound other (List.mem_cons_of_mem _ hother)]
    exact place_image (hsound segment List.mem_cons_self) hposition

theorem foldl_place_uncovered (huncovered : ∀ segment ∈ segments, ¬segment.Covers position) :
    segments.foldl (place image) memory position = memory position := by
  induction segments generalizing memory with
  | nil => rfl
  | cons segment segments ih =>
    rw [List.foldl_cons, ih (fun other hother => hsound other (List.mem_cons_of_mem _ hother))
      (fun other hother => huncovered other (List.mem_cons_of_mem _ hother)),
      place_apply (hsound segment List.mem_cons_self),
      if_neg (huncovered segment List.mem_cons_self)]

omit hsound in
/-- The last segment that covers an address decides what it holds. -/
theorem foldl_place_last (hsound : ∀ other ∈ earlier ++ segment :: later, other.Sound image size)
    (hcovers : segment.Covers position) (hlater : ∀ other ∈ later, ¬other.Covers position) :
    (earlier ++ segment :: later).foldl (place image) memory position
      = segment.byte memory image position := by
  have hsegment : segment.Sound image size := hsound segment (by simp)
  rw [List.foldl_append, List.foldl_cons,
    foldl_place_uncovered (fun other hother => hsound other (by simp [hother])) hlater,
    place_apply hsegment, if_pos hcovers]
  exact byte_congr hsegment hcovers fun other hother =>
    foldl_place_image (fun before hbefore => hsound before (by simp [hbefore])) hother

omit hsound in
/-- Either no segment covers an address or there is a last one that does. -/
theorem uncovered_or_last (segments : List Segment) (position : ℕ) :
    (∀ segment ∈ segments, ¬segment.Covers position)
      ∨ ∃ earlier segment later, segments = earlier ++ segment :: later
        ∧ segment.Covers position ∧ ∀ other ∈ later, ¬other.Covers position := by
  induction segments with
  | nil => exact .inl (by simp)
  | cons first segments ih =>
    cases ih with
    | inr hlast =>
      obtain ⟨earlier, segment, later, rfl, hcovers, hlater⟩ := hlast
      exact .inr ⟨first :: earlier, segment, later, rfl, hcovers, hlater⟩
    | inl huncovered =>
      by_cases hfirst : first.Covers position
      · exact .inr ⟨[], first, segments, rfl, hfirst, huncovered⟩
      · refine .inl fun segment hsegment => ?_
        cases hsegment with
        | head => exact hfirst
        | tail _ hrest => exact huncovered segment hrest

/-- At this address the segments store what is already there. -/
def Restores (memory : Memory) (image : ℕ) (segments : List Segment) (position : ℕ) : Prop :=
  ∀ earlier segment later, segments = earlier ++ segment :: later → segment.Covers position →
    (∀ other ∈ later, ¬other.Covers position) → segment.byte memory image position = memory position

theorem restores_iff :
    Restores memory image segments position
      ↔ segments.foldl (place image) memory position = memory position := by
  constructor
  · intro hrestores
    cases uncovered_or_last segments position with
    | inl huncovered => exact foldl_place_uncovered hsound huncovered
    | inr hlast =>
      obtain ⟨earlier, segment, later, rfl, hcovers, hlater⟩ := hlast
      rw [foldl_place_last hsound hcovers hlater]
      exact hrestores earlier segment later rfl hcovers hlater
  · rintro hplaced earlier segment later rfl hcovers hlater
    rw [← hplaced]
    exact (foldl_place_last hsound hcovers hlater).symm

end Segment

end FacetOS.ByteMemory
