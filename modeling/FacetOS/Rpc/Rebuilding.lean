import FacetOS.Core.Passes
import FacetOS.Rpc.Codec
import FacetOS.Rpc.Value

/-!
# What the decoder rebuilds

The decoder stores into the object it is given and into blocks that it allocates.  What
a decoding step leaves is stated as a property of the memory together with the part of
the object on which the property rests: later steps may overwrite everything else.
-/

namespace FacetOS.Rpc

open LittleEndian ByteMemory

variable {size data offset : ℕ} {property : Memory → Prop} {state : DecodeState} {memory : Memory}

/-! ## Bytes in a payload -/

/-- The bytes stand in the payload from the offset on. -/
def Carries (payload : List UInt8) (offset : ℕ) (bytes : List UInt8) : Prop :=
  ∃ before after, payload = before ++ bytes ++ after ∧ offset = before.length

section Carried

variable {payload bytes : List UInt8}

theorem Carries.left {rest : List UInt8} (hcarries : Carries payload offset (bytes ++ rest)) :
    Carries payload offset bytes := by
  obtain ⟨before, after, hpayload, hoffset⟩ := hcarries
  exact ⟨before, rest ++ after, by simp [hpayload], hoffset⟩

theorem Carries.right {rest : List UInt8} (hcarries : Carries payload offset (bytes ++ rest)) :
    Carries payload (offset + bytes.length) rest := by
  obtain ⟨before, after, hpayload, hoffset⟩ := hcarries
  exact ⟨before ++ bytes, after, by simp [hpayload], by simp [hoffset]⟩

theorem Carries.le (hcarries : Carries payload offset bytes) :
    offset + bytes.length ≤ payload.length := by
  obtain ⟨before, after, hpayload, hoffset⟩ := hcarries
  rw [hpayload, hoffset, List.length_append, List.length_append]
  exact Nat.le_add_right _ _

theorem Carries.codecRead (hcarries : Carries payload offset bytes) :
    codecRead payload offset bytes.length = .ok bytes := by
  have hle := hcarries.le
  obtain ⟨before, after, hpayload, hoffset⟩ := hcarries
  rw [Rpc.codecRead, if_neg (by omega), hpayload, hoffset]
  simp

end Carried

/-! ## Decoding steps -/

/-- The decoder reports that memory ran out, or it has consumed `size` bytes, stored into
the target only, and left the property on the kept part of it. -/
def Rebuilds (result : Decoded) (state : DecodeState) (size : ℕ) (target kept : Block)
    (property : Memory → Prop) : Prop :=
  result.1 = .error .outOfMemory ∨
    result.1 = .ok () ∧ result.2.offset = state.offset + size ∧
      Keeps target kept state.heap result.2.heap property

section Steps

variable {result : Decoded} {target kept : Block}

theorem Rebuilds.imp {weaker : Memory → Prop}
    (hrebuilds : Rebuilds result state size target kept property)
    (himp : ∀ memory, property memory → weaker memory) :
    Rebuilds result state size target kept weaker :=
  hrebuilds.imp_right fun ⟨hok, hoffset, hkeeps⟩ => ⟨hok, hoffset, hkeeps.imp himp⟩

theorem Rebuilds.mono {outer whole : Block}
    (hrebuilds : Rebuilds result state size target kept property)
    (htarget : target.Within outer) (hkept : kept.Within whole) :
    Rebuilds result state size outer whole property :=
  hrebuilds.imp_right fun ⟨hok, hoffset, hkeeps⟩ => ⟨hok, hoffset, hkeeps.mono htarget hkept⟩

/-- Two decoding steps on parts of one target, the second one apart from what is kept of
the first one. -/
theorem Rebuilds.andThen {next : DecodeState → Decoded} {rest : ℕ}
    {left right outer leftKept rightKept whole : Block} {later : Memory → Prop}
    (hfirst : Rebuilds result state size left leftKept property)
    (hnext : ∀ after : DecodeState, after.offset = state.offset + size →
      Owned right after.heap.live → Rebuilds (next after) after rest right rightKept later)
    (hleft : left.Within outer) (hright : right.Within outer) (hleftKept : leftKept.Within whole)
    (hrightKept : rightKept.Within whole) (hwhole : whole.Within outer)
    (hseparate : leftKept.Separate right) (howned : Owned outer state.heap.live) :
    Rebuilds (Outcome.andThen result next) state (size + rest) outer whole
      (fun memory => property memory ∧ later memory) := by
  obtain ⟨code, after⟩ := result
  rcases hfirst with hmemory | ⟨hok, hoffset, hkeeps⟩
  · cases hmemory
    exact .inl rfl
  cases hok
  rcases hnext after hoffset (hkeeps.owned (howned.within hright)) with
    hmemory | ⟨hlast, hend, hothers⟩
  · exact .inl hmemory
  · refine .inr ⟨hlast, ?_, hkeeps.seq hothers hleft hright hleftKept hrightKept hwhole hseparate
      howned⟩
    rw [Outcome.andThen, hend, hoffset, Nat.add_assoc]

/-- A part at an offset, and the rest behind what is kept of the part.  Both may store
everywhere up to the limit. -/
theorem Rebuilds.behind {next : DecodeState → Decoded}
    {length rest output first extent limit : ℕ} {later : Memory → Prop}
    (hpart : Rebuilds result state length ⟨output + offset, limit - offset⟩
      ⟨output + offset, extent⟩ property)
    (hnext : ∀ after : DecodeState, after.offset = state.offset + length →
      Owned ⟨output + (offset + extent), limit - (offset + extent)⟩ after.heap.live →
      Rebuilds (next after) after rest ⟨output + (offset + extent), limit - (offset + extent)⟩
        ⟨output + (offset + extent), size - (offset + extent)⟩ later)
    (hfirst : first ≤ offset) (hextent : offset + extent ≤ size) (hsize : size ≤ limit)
    (howned : Owned ⟨output + first, limit - first⟩ state.heap.live) :
    Rebuilds (Outcome.andThen result next) state (length + rest)
      ⟨output + first, limit - first⟩ ⟨output + first, size - first⟩
      (fun memory => property memory ∧ later memory) := by
  have hbehind : first ≤ offset + extent := hfirst.trans (Nat.le_add_right _ _)
  apply hpart.andThen hnext _ _ _ _ _ _ howned
  · exact Block.part_within hfirst (by omega)
  · exact Block.part_within hbehind (by omega)
  · exact Block.part_within hfirst hextent
  · exact Block.part_within hbehind (by omega)
  · exact Block.within_of_le le_rfl (by dsimp only; omega)
  · exact Block.separate_of_le (Nat.le_of_eq (Nat.add_assoc _ _ _))

end Steps

section Decoder

variable {allocator : Allocator} {payload bytes : List UInt8}
  {output : ℕ}

/-- A scalar, of which the object has room for the first bytes. -/
theorem decodeScalar_rebuilds (normalise : ℕ → List UInt8) {written : List UInt8}
    (output room : ℕ) {limit : ℕ} (hcarries : Carries payload state.offset bytes)
    (hlength : bytes.length = size) (hwritten : normalise (leValue bytes) = written)
    (hlimit : written.length ≤ limit) :
    Rebuilds (decodeScalar payload size normalise output state) state bytes.length
      ⟨output, limit⟩ ⟨output, room⟩
      (fun memory => (load memory output written.length).take room = written.take room) := by
  rw [decodeScalar, ← hlength, hcarries.codecRead]
  dsimp only
  rw [hwritten]
  exact .inr ⟨rfl, rfl, Keeps.of_store _ _ _ hlimit⟩

/-- A new block, and the two words of the target that describe it. -/
theorem Frame.alloc {heap : Heap} {first second : ℕ}
    (hplace : allocator.place heap.live size = some data)
    (hagree : ∀ position, ¬ Block.Covers ⟨data, size⟩ position →
      memory position = heap.memory position) :
    Frame [⟨output, 16⟩] heap
      ⟨storeNat (storeNat memory output 8 first) (output + 8) 8 second,
        ⟨data, size⟩ :: heap.live⟩ [⟨data, size⟩] where
  live_eq := rfl
  separate := by
    intro block hblock
    rw [List.mem_singleton.mp hblock]
    exact allocator.place_separate _ _ _ hplace
  agree := by
    intro position houtside hfresh
    rw [covered_singleton] at houtside
    exact (storeNat_pair_outside houtside).trans
      (hagree position fun hcovers => hfresh (covered_singleton.mpr hcovers))

/-- The last three stores of the string branch, in the order in which they fill
the new block after the string itself. -/
theorem string_stores_comm (memory : Memory)
    (hseparate : Block.Separate ⟨data, bytes.length + 1⟩ ⟨output, 16⟩) :
    storeNat (store (store (storeNat memory output 8 data) data bytes)
        (data + bytes.length) [0]) (output + 8) 8 bytes.length =
      store (store (storeNat (storeNat memory output 8 data) (output + 8) 8 bytes.length)
        data bytes) (data + bytes.length) [0] := by
  have hword : Block.Within ⟨output + 8, (leBytes 8 bytes.length).length⟩ ⟨output, 16⟩ := by
    rw [length_leBytes]
    exact Block.secondWord_within output
  have hbytes : Block.Separate ⟨data, bytes.length⟩ _ := fun position hcovers hout =>
    hseparate position ⟨hcovers.1, Nat.lt_succ_of_lt hcovers.2⟩ (hword position hout)
  have hlast : Block.Separate ⟨data + bytes.length, ([0] : List UInt8).length⟩ _ :=
    fun position hcovers hout => hseparate position
      ⟨Nat.le_of_add_right_le hcovers.1, hcovers.2⟩ (hword position hout)
  rw [storeNat, store_comm hlast, store_comm hbytes, ← storeNat]

/-- The bytes of a string and the null behind them fill their block. -/
theorem Filled.string_bytes {heap : Heap} (howned : Owned ⟨data, bytes.length + 1⟩ heap.live) :
    Filled ⟨data, bytes.length + 1⟩ heap
      ⟨store (store heap.memory data bytes) (data + bytes.length) [0], heap.live⟩
      (fun memory => load memory data bytes.length = bytes) := by
  have hbytes := Filled.of_store heap data bytes
  have hlast := Filled.of_store ⟨store heap.memory data bytes, heap.live⟩
    (data + bytes.length) [0]
  have hfront : Block.Within ⟨data, bytes.length⟩ ⟨data, bytes.length + 1⟩ :=
    Block.within_of_le le_rfl (Nat.le_succ _)
  have hback : Block.Within ⟨data + bytes.length, 1⟩ ⟨data, bytes.length + 1⟩ :=
    Block.within_of_le (Nat.le_add_right _ _) (Nat.le_of_eq (Nat.add_assoc _ _ _))
  exact (hbytes.seq hlast hfront hback hfront hback (fun _ hcovers => hcovers)
    (Block.separate_of_le le_rfl) howned).imp fun memory hboth => hboth.1

theorem decodeString_rebuilds
    (hcarries : Carries payload state.offset (leBytes 4 bytes.length ++ bytes))
    (hlength : bytes.length < 2 ^ 32) (howned : Owned ⟨output, 16⟩ state.heap.live) :
    Rebuilds (decodeString allocator payload output state) state
      (leBytes 4 bytes.length ++ bytes).length ⟨output, 16⟩ ⟨output, 16⟩
      (fun memory => loadNat memory (output + 8) 8 = bytes.length ∧
        loadNat memory output 8 ≠ 0 ∧
        load memory (loadNat memory output 8) bytes.length = bytes) := by
  have hcount := hcarries.left.codecRead
  rw [length_leBytes] at hcount
  have hvalue : leValue (leBytes 4 bytes.length) = bytes.length :=
    leValue_leBytes_of_lt (by omega)
  have hbytes := hcarries.right
  rw [length_leBytes] at hbytes
  have hle := hbytes.le
  rw [decodeString, hcount]
  dsimp only
  rw [hvalue, if_neg (by omega)]
  cases hplace : allocator.place state.heap.live (bytes.length + 1) with
  | none =>
    left
    simp [malloc, hplace]
  | some data =>
    right
    have hbound := allocator.place_le _ _ _ hplace
    have hnull := allocator.place_pos _ _ _ hplace
    simp only [malloc, hplace, Option.map_some, DecodeState.storeNat, DecodeState.store,
      hbytes.codecRead, List.length_append, length_leBytes, true_and]
    refine ⟨Nat.add_assoc _ _ _, ?_⟩
    have hframe : Frame [⟨output, 16⟩] state.heap
        ⟨storeNat (storeNat state.heap.memory output 8 data) (output + 8) 8 bytes.length,
          ⟨data, bytes.length + 1⟩ :: state.heap.live⟩ [⟨data, bytes.length + 1⟩] :=
      Frame.alloc hplace fun _ _ => rfl
    have hwords := settled_storeNat_pair state.heap.memory output
      (show data < 2 ^ 64 by omega) (show bytes.length < 2 ^ 64 by omega)
    have hfilled := Filled.nest hframe hwords
      (Filled.string_bytes ⟨_, List.mem_cons_self, fun _ hcovers => hcovers⟩) howned
    rw [← string_stores_comm state.heap.memory
      (hframe.fresh_separate List.mem_cons_self howned)] at hfilled
    apply hfilled.imp
    rintro memory ⟨⟨hpointer, hfield⟩, hload⟩
    rw [hpointer]
    exact ⟨hfield, hnull.ne', hload⟩

/-- The elements of an array from number `index` on hold what is listed. -/
def HoldAll {Tree : Type} (holds : Tree → ℕ → Memory → Prop) (data size : ℕ) (memory : Memory) :
    ℕ → List Tree → Prop
  | _, [] => True
  | index, tree :: trees =>
    holds tree (data + index * size) memory ∧ HoldAll holds data size memory (index + 1) trees

variable {decodeElement : ℕ → DecodeState → Decoded}

/-- Decoding elements one after the other, given what one element rebuilds. -/
theorem decodeElements_rebuilds {Tree : Type} {spelled : Tree → List UInt8}
    {holds : Tree → ℕ → Memory → Prop}
    {trees : List Tree}
    (hstep : ∀ tree ∈ trees, ∀ address state, Carries payload state.offset (spelled tree) →
      Owned ⟨address, size⟩ state.heap.live →
      Rebuilds (decodeElement address state) state (spelled tree).length ⟨address, size⟩
        ⟨address, size⟩ (holds tree address)) (index : ℕ) (state : DecodeState)
    (hcarries : Carries payload state.offset (trees.flatMap spelled))
    (howned : Owned ⟨data + index * size, trees.length * size⟩ state.heap.live) :
    Rebuilds (decodeElements decodeElement data size trees.length index state) state
      (trees.flatMap spelled).length ⟨data + index * size, trees.length * size⟩
      ⟨data + index * size, trees.length * size⟩
      (fun memory => HoldAll holds data size memory index trees) := by
  induction trees generalizing index state with
  | nil =>
    refine .inr ⟨rfl, rfl, ?_⟩
    exact Keeps.refl _ _ _
  | cons tree rest ih =>
    rw [List.flatMap_cons] at hcarries ⊢
    rw [List.length_cons, decodeElements, List.length_append]
    have hhead := hstep tree List.mem_cons_self _ state hcarries.left
      (howned.within Block.element_within)
    refine hhead.andThen (fun after hoffset hlive => ?_) Block.element_within Block.later_within
      Block.element_within Block.later_within (fun _ hcovers => hcovers) Block.element_separate
      howned
    have hrest := hcarries.right
    rw [← hoffset] at hrest
    exact ih (fun later hlater => hstep later (List.mem_cons_of_mem _ hlater))
      (index + 1) after hrest hlive

/-- The array branch of the decoder, given what one element rebuilds. -/
theorem decodeArray_rebuilds {Tree : Type} {spelled : Tree → List UInt8}
    {holds : Tree → ℕ → Memory → Prop}
    (allocator : Allocator) (releaseElement : ℕ → DecodeState → DecodeState) {trees : List Tree}
    (hstep : ∀ tree ∈ trees, ∀ address state, Carries payload state.offset (spelled tree) →
      Owned ⟨address, size⟩ state.heap.live →
      Rebuilds (decodeElement address state) state (spelled tree).length ⟨address, size⟩
        ⟨address, size⟩ (holds tree address))
    (hcarries : Carries payload state.offset (leBytes 4 trees.length ++ trees.flatMap spelled))
    (hcount : trees.length < 2 ^ 32) (hsize : size = 0 → trees.length = 0)
    (hfits : trees.length * size ≤ sizeMax) (howned : Owned ⟨output, 16⟩ state.heap.live) :
    Rebuilds (decodeArray allocator payload size decodeElement releaseElement output
      state) state (leBytes 4 trees.length ++ trees.flatMap spelled).length ⟨output, 16⟩
      ⟨output, 16⟩ (fun memory => loadNat memory (output + 8) 8 = trees.length ∧
        (trees ≠ [] → loadNat memory output 8 ≠ 0) ∧
        HoldAll holds (loadNat memory output 8) size memory 0 trees) := by
  have hread := hcarries.left.codecRead
  rw [length_leBytes] at hread
  have hvalue : leValue (leBytes 4 trees.length) = trees.length :=
    leValue_leBytes_of_lt (by omega)
  have hbytes := hcarries.right
  rw [length_leBytes] at hbytes
  rw [decodeArray, hread]
  dsimp only
  rw [hvalue]
  by_cases hempty : trees = []
  · subst hempty
    have hwords := settled_storeNat_pair state.heap.memory output
      (show 0 < 2 ^ 64 by decide) (show 0 < 2 ^ 64 by decide)
    simp only [List.length_nil, ne_eq, not_true_eq_false, and_false, if_false, false_and,
      if_true, List.flatMap_nil, List.append_nil, length_leBytes]
    refine .inr ⟨rfl, rfl, [], ?_, ?_⟩
    · exact Frame.of_agree rfl fun position houtside => storeNat_pair_outside houtside
    · intro other hagree
      obtain ⟨hpointer, hfield⟩ := hwords other hagree
      exact ⟨hfield, False.elim, trivial⟩
  · have hlength : trees.length ≠ 0 := fun hzero => hempty (List.length_eq_zero_iff.mp hzero)
    have hpositive : 0 < size := Nat.pos_of_ne_zero fun hzero => hlength (hsize hzero)
    have hquotient : trees.length ≤ sizeMax / size :=
      (Nat.le_div_iff_mul_le hpositive).mpr hfits
    rw [if_neg (by omega), if_neg (by omega), if_neg hlength]
    cases hplace : allocator.place state.heap.live (trees.length * size) with
    | none =>
      left
      simp [calloc, malloc, hplace]
    | some data =>
      have hbound := allocator.place_le _ _ _ hplace
      have hnull := allocator.place_pos _ _ _ hplace
      have hblock := Nat.mul_pos (Nat.pos_of_ne_zero hlength) hpositive
      simp only [calloc, malloc, hplace, Option.map_some]
      let entry : Heap :=
        ⟨storeNat (storeNat (store state.heap.memory data
            (List.replicate (trees.length * size) 0)) output 8 data)
            (output + 8) 8 trees.length,
          ⟨data, trees.length * size⟩ :: state.heap.live⟩
      have hframe : Frame [⟨output, 16⟩] state.heap entry
          [⟨data, trees.length * size⟩] := by
        apply Frame.alloc hplace
        intro position houtside
        apply store_outside
        rwa [List.length_replicate]
      have hwords := settled_storeNat_pair (store state.heap.memory data
        (List.replicate (trees.length * size) 0)) output
        (show data < 2 ^ 64 by omega) (show trees.length < 2 ^ 64 by omega)
      have hfirst : Owned ⟨data + 0 * size, trees.length * size⟩ entry.live := by
        rw [Nat.zero_mul, Nat.add_zero]
        exact ⟨_, List.mem_cons_self, fun _ hcovers => hcovers⟩
      have helements := decodeElements_rebuilds hstep 0 ⟨entry, state.offset + 4⟩ hbytes hfirst
      generalize hresult : decodeElements decodeElement data size trees.length 0 _ = result
      rw [show decodeElements decodeElement data size trees.length 0
        ⟨entry, state.offset + 4⟩ = result from hresult] at helements
      obtain ⟨code, after⟩ := result
      rcases helements with hmemory | ⟨hok, hend, hfilled⟩
      · cases hmemory
        exact .inl rfl
      cases hok
      refine .inr ⟨rfl, ?_, ?_⟩
      · dsimp only at hend ⊢
        rw [hend, List.length_append, length_leBytes, Nat.add_assoc]
      · rw [Nat.zero_mul, Nat.add_zero] at hfilled
        apply (Filled.nest hframe hwords hfilled howned).imp
        rintro memory ⟨⟨hpointer, hcounted⟩, hvalues⟩
        rw [hpointer]
        exact ⟨hcounted, fun _ => hnull.ne', hvalues⟩

end Decoder

end FacetOS.Rpc
