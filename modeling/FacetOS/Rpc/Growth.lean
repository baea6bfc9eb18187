import FacetOS.Rpc.Codec
import FacetOS.Core.Checked

/-!
# The buffer of the codec

`codec_write` on the block that it allocates, with a fault for every addition or
multiplication that wraps, every access outside a block and every doubling loop of more
than 64 rounds.  There are none: a write appends its bytes to those that are in use, or
fails and changes nothing.
-/

namespace FacetOS.Rpc

open Checked

/-- The allocated bytes, of which the first `size` are in use. -/
structure CodecBlock where
  data : List UInt8
  size : ℕ

def CodecBlock.capacity (codec : CodecBlock) : ℕ := codec.data.length

/-- The bytes in use. -/
def CodecBlock.contents (codec : CodecBlock) : List UInt8 := codec.data.take codec.size

/-- The doubling loop, with a bound on its rounds. -/
def doubleCapacity (needed : ℕ) : ℕ → ℕ → Except Fault (Option ℕ)
  | 0, _ => .error .exhausted
  | rounds + 1, capacity =>
    if capacity < needed then
      if capacity > sizeMax / 2 then .ok none
      else do
        let doubled ← mul (sizeMax + 1) capacity 2
        doubleCapacity needed rounds doubled
    else .ok (some capacity)

/-- Make room for `needed` bytes.  If `realloc` succeeds it keeps the old bytes, and what it
puts behind them is arbitrary. -/
def CodecBlock.reserve (realloc : ℕ → Option (ℕ → UInt8)) (codec : CodecBlock) (needed : ℕ) :
    Except Fault (Option FacetError × CodecBlock) :=
  if needed > codec.capacity then do
    let some capacity ← doubleCapacity needed 64
      (if codec.capacity = 0 then 256 else codec.capacity) | .ok (some .bufferTooSmall, codec)
    match realloc capacity with
    | none => .ok (some .outOfMemory, codec)
    | some fresh =>
      let expanded := codec.data ++ (List.range (capacity - codec.capacity)).map fresh
      .ok (none, { codec with data := expanded })
  else .ok (none, codec)

/-- `codec_write`; no failure is `FACET_OK`. -/
def CodecBlock.write (realloc : ℕ → Option (ℕ → UInt8)) (codec : CodecBlock)
    (data : Option (List UInt8)) (size : ℕ) : Except Fault (Option FacetError × CodecBlock) :=
  if size ≠ 0 ∧ data = none then .ok (some .invalidArgument, codec)
  else if size > sizeMax - codec.size then .ok (some .bufferTooSmall, codec)
  else do
    let needed ← add (sizeMax + 1) codec.size size
    let (failure, codec) ← codec.reserve realloc needed
    if failure ≠ none then .ok (failure, codec)
    else
      let bytes ← loadBlock (data.getD []) 0 size
      let stored ← storeBlock codec.data codec.size bytes
      let size ← add (sizeMax + 1) codec.size size
      .ok (none, ⟨stored, size⟩)

/-- The bytes in use lie in the block, whose capacity is a `size_t`. -/
structure CodecBlock.Held (codec : CodecBlock) : Prop where
  size_le : codec.size ≤ codec.capacity
  capacity_le : codec.capacity ≤ sizeMax

/-- There is room for `needed` bytes, or doubling reaches a capacity that `realloc` grants. -/
def CodecBlock.Reserves (realloc : ℕ → Option (ℕ → UInt8)) (codec : CodecBlock) (needed : ℕ) :
    Prop :=
  needed ≤ codec.capacity
    ∨ ∃ grown ∈ growCapacity needed 65 (if codec.capacity = 0 then 256 else codec.capacity),
      (realloc grown).isSome

/-- A run ends without a fault: where it is `able` to, it succeeds with a codec that is `done`,
and otherwise it fails and leaves the codec as it was. -/
def CodecBlock.Ends (codec : CodecBlock) (able : Prop) (done : CodecBlock → Prop)
    (run : Except Fault (Option FacetError × CodecBlock)) : Prop :=
  (¬able ∧ ∃ failure, run = .ok (some failure, codec))
    ∨ able ∧ ∃ after, run = .ok (none, after) ∧ after.Held ∧ done after

variable {needed capacity : ℕ} {realloc : ℕ → Option (ℕ → UInt8)} {codec : CodecBlock}

/-- A loop that doubles a positive capacity has passed every `size_t` after 64 rounds, and no
doubling wraps: the loop computes what it does on unbounded numbers. -/
theorem doubleCapacity_eq_ok {rounds : ℕ} (hrounds : rounds ≠ 0)
    (hcapacity : 2 ^ 64 ≤ capacity * 2 ^ rounds) (hbound : capacity ≤ sizeMax) :
    doubleCapacity needed rounds capacity = .ok (growCapacity needed (rounds + 1) capacity)
      ∧ ∀ grown ∈ growCapacity needed (rounds + 1) capacity, needed ≤ grown ∧ grown ≤ sizeMax := by
  induction rounds generalizing capacity with
  | zero => exact absurd rfl hrounds
  | succ rounds ih =>
    unfold doubleCapacity growCapacity
    split_ifs with hless hlarge
    · exact ⟨rfl, fun _ hnone => nomatch hnone⟩
    · have hdouble : capacity * 2 ≤ sizeMax := by
        unfold sizeMax at hlarge ⊢
        omega
      have hagain : rounds ≠ 0 := by
        rintro rfl
        unfold sizeMax at hdouble
        omega
      rw [@Nat.pow_succ' 2 rounds, ← Nat.mul_assoc] at hcapacity
      rw [mul_eq_ok (Nat.lt_succ_of_le hdouble), ok_bind]
      exact ih hagain hcapacity hdouble
    · refine ⟨rfl, ?_⟩
      rintro _ ⟨⟩
      exact ⟨not_lt.mp hless, hbound⟩

/-- Making room does not touch the bytes in use. -/
theorem CodecBlock.Held.reserve (hheld : codec.Held) (realloc : ℕ → Option (ℕ → UInt8))
    (needed : ℕ) :
    codec.Ends (codec.Reserves realloc needed)
      (fun after => needed ≤ after.capacity ∧ after.size = codec.size
        ∧ after.contents = codec.contents) (codec.reserve realloc needed) := by
  unfold CodecBlock.reserve CodecBlock.Reserves
  by_cases hgrow : needed > codec.capacity
  · have hstart : 2 ^ 64 ≤ (if codec.capacity = 0 then 256 else codec.capacity) * 2 ^ 64 := by
      split_ifs <;> omega
    have hbound : (if codec.capacity = 0 then 256 else codec.capacity) ≤ sizeMax := by
      split_ifs
      · decide
      · exact hheld.capacity_le
    obtain ⟨hloop, hresult⟩ := @doubleCapacity_eq_ok needed _ 64 (by decide) hstart hbound
    rw [if_pos hgrow, hloop, ok_bind]
    cases hgrown : growCapacity needed 65 (if codec.capacity = 0 then 256 else codec.capacity) with
    | none => exact .inl ⟨by simpa using hgrow, _, rfl⟩
    | some grown =>
      obtain ⟨hneeded, hgrown⟩ := hresult grown hgrown
      dsimp only
      cases hrealloc : realloc grown with
      | none => exact .inl ⟨by simpa [hrealloc] using hgrow, _, rfl⟩
      | some fresh =>
        have hcapacity : (codec.data ++ (List.range (grown - codec.capacity)).map fresh).length
            = grown := by
          rw [List.length_append, List.length_map, List.length_range]
          change codec.capacity + _ = _
          omega
        refine .inr ⟨.inr ⟨grown, rfl, by rw [hrealloc]; rfl⟩, _, rfl,
          ⟨?_, hcapacity.trans_le hgrown⟩, hneeded.trans_eq hcapacity.symm, rfl,
          List.take_append_of_le_length hheld.size_le⟩
        exact hheld.size_le.trans ((hgrow.le.trans hneeded).trans_eq hcapacity.symm)
  · rw [if_neg hgrow]
    exact .inr ⟨.inl (not_lt.mp hgrow), _, rfl, hheld, not_lt.mp hgrow, rfl, rfl⟩

/-- Every write ends without a fault.  It succeeds exactly if there is data for it, the new size
is a `size_t` and room for it is found.  Then exactly the given bytes stand behind the earlier
ones; if it fails, the codec is as it was. -/
theorem codecWrite_appends (realloc : ℕ → Option (ℕ → UInt8)) {codec : CodecBlock}
    (hheld : codec.Held) {data : Option (List UInt8)} {size : ℕ}
    (hdata : ∀ bytes ∈ data, size ≤ bytes.length) :
    codec.Ends ((size ≠ 0 → data ≠ none) ∧ codec.size + size ≤ sizeMax
        ∧ codec.Reserves realloc (codec.size + size))
      (fun after => after.size = codec.size + size
        ∧ after.contents = codec.contents ++ (data.getD []).take size)
      (codec.write realloc data size) := by
  unfold CodecBlock.write
  by_cases hnull : size ≠ 0 ∧ data = none
  · exact .inl ⟨fun hable => hable.1 hnull.1 hnull.2, _, if_pos hnull⟩
  rw [if_neg hnull]
  by_cases hwrap : size > sizeMax - codec.size
  · exact .inl ⟨fun hable => by omega, _, if_pos hwrap⟩
  have hsize := hheld.size_le.trans hheld.capacity_le
  rw [if_neg hwrap, add_eq_ok (by omega), ok_bind]
  obtain ⟨hroomless, failure, hfailed⟩ |
      ⟨hreserves, room, hroom, hroomHeld, hneeded, hsame, hcontents⟩ :=
    hheld.reserve realloc (codec.size + size)
  · rw [hfailed]
    exact .inl ⟨fun hable => hroomless hable.2.2, failure, rfl⟩
  have hreadable : size ≤ (data.getD []).length := by
    cases data with
    | none => simpa using hnull
    | some bytes => exact hdata bytes rfl
  have hlength : ((data.getD []).take size).length = size := List.length_take_of_le hreadable
  obtain ⟨stored, hstore, hkept, htake⟩ := @storeBlock_eq_ok _ room.data
    ((data.getD []).take size) room.size (by rw [hlength, hsame]; exact hneeded)
  rw [hroom, ok_bind]
  dsimp only
  rw [if_neg (not_not.mpr rfl), loadBlock_eq_ok (by omega), ok_bind, List.drop_zero, hstore,
    ok_bind, add_eq_ok (by omega), ok_bind]
  rw [hlength] at htake
  refine .inr ⟨⟨not_and.mp hnull, by omega, hreserves⟩, _, rfl,
    ⟨?_, hkept.trans_le hroomHeld.capacity_le⟩, by rw [hsame], ?_⟩
  · rw [hsame]
    exact hneeded.trans_eq hkept.symm
  · exact htake.trans (congrArg (· ++ _) hcontents)

/-- A full block of two bytes is doubled for a third one. -/
theorem codecWrite_appends_doubled :
    ∃ after, (⟨[7, 8], 2⟩ : CodecBlock).write (fun _ => some fun _ => 0) (some [9]) 1
        = .ok (none, after)
      ∧ after.data = [7, 8, 9, 0] ∧ after.contents = [7, 8] ++ [9] := by
  have hheld : (⟨[7, 8], 2⟩ : CodecBlock).Held := ⟨by decide, by decide⟩
  have hdata : ∀ bytes ∈ some [(9 : UInt8)], 1 ≤ bytes.length := by simp
  obtain ⟨hunable, -⟩ | ⟨-, after, hdone, -, -, hcontents⟩ :=
    codecWrite_appends (fun _ => some fun _ => 0) hheld hdata
  · exact absurd ⟨fun _ => by simp, by decide, .inr ⟨4, rfl, rfl⟩⟩ hunable
  · exact ⟨after, hdone, (Prod.mk.inj (Except.ok.inj hdone)).2 ▸ rfl, hcontents⟩

end FacetOS.Rpc
