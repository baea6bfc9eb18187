import FacetOS.Core.Memory

/-!
# Stacks in byte memory

A stack that grows downwards and stops at a floor.  What has been pushed stays
where it is, because every later push writes below it.  Words, texts and
word vectors that stand in memory are read back upwards.
-/

namespace FacetOS.ByteMemory

open LittleEndian

/-- These bytes stand in memory from `address` on. -/
def Holds (memory : Memory) (address : ℕ) (bytes : List UInt8) : Prop :=
  load memory address bytes.length = bytes

variable {memory later : Memory} {address : ℕ} {bytes : List UInt8}

theorem load_add (memory : Memory) (address left right : ℕ) :
    load memory address (left + right)
      = load memory address left ++ load memory (address + left) right := by
  simp only [load, List.range_add, List.map_append, List.map_map]
  congr 1
  apply List.map_congr_left
  intro index _
  simp [Nat.add_assoc]

theorem holds_append {left right : List UInt8} :
    Holds memory address (left ++ right)
      ↔ Holds memory address left ∧ Holds memory (address + left.length) right := by
  unfold Holds
  rw [List.length_append, load_add]
  constructor
  · intro hload
    exact List.append_inj hload length_load
  · rintro ⟨hleft, hright⟩
    rw [hleft, hright]

theorem Holds.congr (hholds : Holds memory address bytes)
    (hkept : ∀ position, address ≤ position → later position = memory position) :
    Holds later address bytes :=
  (load_congr fun position hcovers => hkept position hcovers.1).trans hholds

theorem Holds.loadNat {width value : ℕ} (hholds : Holds memory address (leBytes width value))
    (hvalue : value < 256 ^ width) : ByteMemory.loadNat memory address width = value := by
  have hload : load memory address width = leBytes width value := by
    have hbytes := hholds
    rwa [Holds, length_leBytes] at hbytes
  rw [ByteMemory.loadNat, hload, leValue_leBytes_of_lt hvalue]

/-! ## Texts -/

/-- The text at an address, up to its terminator; `fuel` bounds the search. -/
def loadText : ℕ → Memory → ℕ → Option (List UInt8)
  | 0, _, _ => none
  | fuel + 1, memory, address =>
    if memory address = 0 then some []
    else (loadText fuel memory (address + 1)).map (memory address :: ·)

theorem loadText_of_holds {fuel : ℕ} (hzero : 0 ∉ bytes) (hfuel : bytes.length < fuel)
    (hholds : Holds memory address (bytes ++ [0])) : loadText fuel memory address = some bytes := by
  induction bytes generalizing address fuel with
  | nil =>
    obtain ⟨fuel, rfl⟩ := Nat.exists_eq_succ_of_ne_zero (Nat.ne_of_gt hfuel)
    have hbyte : memory address = 0 := by simpa [Holds, load] using hholds
    simp [loadText, hbyte]
  | cons byte bytes ih =>
    obtain ⟨fuel, rfl⟩ := Nat.exists_eq_succ_of_ne_zero (Nat.ne_of_gt (Nat.zero_lt_of_lt hfuel))
    rw [List.cons_append, ← List.singleton_append, holds_append] at hholds
    have hbyte : memory address = byte := by simpa [Holds, load] using hholds.1
    have hrest := ih (fun habsurd => hzero (List.mem_cons_of_mem _ habsurd))
      (Nat.lt_of_succ_lt_succ hfuel) hholds.2
    have hnonzero : byte ≠ 0 := fun habsurd => hzero (habsurd ▸ List.mem_cons_self)
    rw [loadText, hbyte, if_neg hnonzero]
    exact congrArg (Option.map _) hrest

/-! ## Words -/

/-- Consecutive eight-byte words. -/
def wordBytes (words : List ℕ) : List UInt8 :=
  words.flatMap (leBytes 8)

@[simp]
theorem wordBytes_nil : wordBytes [] = [] := rfl

@[simp]
theorem wordBytes_cons (word : ℕ) (words : List ℕ) :
    wordBytes (word :: words) = leBytes 8 word ++ wordBytes words := rfl

@[simp]
theorem wordBytes_append (left right : List ℕ) :
    wordBytes (left ++ right) = wordBytes left ++ wordBytes right :=
  List.flatMap_append

@[simp]
theorem length_wordBytes (words : List ℕ) : (wordBytes words).length = 8 * words.length := by
  induction words with
  | nil => rfl
  | cons word words ih =>
    simp only [wordBytes_cons, List.length_append, length_leBytes, ih, List.length_cons]
    omega

/-- The `count` words from `address` on. -/
def loadWords (memory : Memory) (address count : ℕ) : List ℕ :=
  (List.range count).map fun index => loadNat memory (address + 8 * index) 8

theorem loadWords_succ (memory : Memory) (address count : ℕ) :
    loadWords memory address (count + 1)
      = loadNat memory address 8 :: loadWords memory (address + 8) count := by
  simp only [loadWords, List.range_succ_eq_map, List.map_cons, List.map_map, Nat.mul_zero,
    Nat.add_zero, List.cons.injEq, true_and]
  apply List.map_congr_left
  intro index _
  simp only [Function.comp_apply, Nat.succ_eq_add_one, Nat.mul_add, Nat.mul_one, Nat.add_assoc,
    Nat.add_comm (8 * index)]

theorem loadWords_of_holds {words : List ℕ} (hwords : ∀ word ∈ words, word < 2 ^ 64)
    (hholds : Holds memory address (wordBytes words)) :
    loadWords memory address words.length = words := by
  induction words generalizing address with
  | nil => rfl
  | cons word words ih =>
    rw [wordBytes_cons, holds_append, length_leBytes] at hholds
    rw [List.length_cons, loadWords_succ, hholds.1.loadNat (hwords word List.mem_cons_self),
      ih (fun other hother => hwords other (List.mem_cons_of_mem _ hother)) hholds.2]

/-- The number of words before the first zero word. -/
def countWords : ℕ → Memory → ℕ → Option ℕ
  | 0, _, _ => none
  | fuel + 1, memory, address =>
    if loadNat memory address 8 = 0 then some 0
    else (countWords fuel memory (address + 8)).map (· + 1)

theorem countWords_of_holds {words : List ℕ} {fuel : ℕ}
    (hwords : ∀ word ∈ words, word ≠ 0 ∧ word < 2 ^ 64) (hfuel : words.length < fuel)
    (hholds : Holds memory address (wordBytes (words ++ [0]))) :
    countWords fuel memory address = some words.length := by
  induction words generalizing address fuel with
  | nil =>
    obtain ⟨fuel, rfl⟩ := Nat.exists_eq_succ_of_ne_zero (Nat.ne_of_gt hfuel)
    have hzero : loadNat memory address 8 = 0 := Holds.loadNat (by simpa using hholds) (by simp)
    simp [countWords, hzero]
  | cons word words ih =>
    obtain ⟨fuel, rfl⟩ := Nat.exists_eq_succ_of_ne_zero (Nat.ne_of_gt (Nat.zero_lt_of_lt hfuel))
    rw [List.cons_append, wordBytes_cons, holds_append, length_leBytes] at hholds
    obtain ⟨hnonzero, hlt⟩ := hwords word List.mem_cons_self
    have hrest := ih (fun other hother => hwords other (List.mem_cons_of_mem _ hother))
      (Nat.lt_of_succ_lt_succ hfuel) hholds.2
    rw [countWords, hholds.1.loadNat hlt, if_neg hnonzero, hrest]
    rfl

/-! ## Pushes -/

structure Stack where
  memory : Memory
  pointer : ℕ

/-- A function that stores bytes right below the stack pointer and above a floor.  It
succeeds if there is room for them. -/
structure StackWriter where
  write : ℕ → Stack → List UInt8 → Option Stack
  stored : ∀ {floor before bytes after}, write floor before bytes = some after →
    floor ≤ after.pointer ∧ after.pointer + bytes.length = before.pointer
      ∧ after.memory = store before.memory after.pointer bytes
  succeeds : ∀ {floor : ℕ} {before : Stack} {bytes : List UInt8},
    floor + bytes.length ≤ before.pointer → ∃ after, write floor before bytes = some after

/-- The stack has only grown: what stood above the old pointer is unchanged. -/
structure Stack.Grows (before after : Stack) : Prop where
  pointer_le : after.pointer ≤ before.pointer
  kept : ∀ position, before.pointer ≤ position → after.memory position = before.memory position

namespace Stack

variable {floor : ℕ} {before middle after : Stack}

theorem Grows.refl (stack : Stack) : Grows stack stack :=
  ⟨le_rfl, fun _ _ => rfl⟩

theorem Grows.trans (hfirst : Grows before middle) (hsecond : Grows middle after) :
    Grows before after where
  pointer_le := hsecond.pointer_le.trans hfirst.pointer_le
  kept position hposition :=
    (hsecond.kept position (hfirst.pointer_le.trans hposition)).trans
      (hfirst.kept position hposition)

/-- Moving the pointer down writes nothing. -/
theorem Grows.lower (hgrows : Grows before after) {pointer : ℕ} (hle : pointer ≤ after.pointer) :
    Grows before { after with pointer := pointer } :=
  ⟨hle.trans hgrows.pointer_le, hgrows.kept⟩

theorem Grows.holds (hgrows : Grows before after) (haddress : before.pointer ≤ address)
    (hholds : Holds before.memory address bytes) : Holds after.memory address bytes :=
  hholds.congr fun position hposition => hgrows.kept position (haddress.trans hposition)

variable {writer : StackWriter}

theorem holds_push (hpush : writer.write floor before bytes = some after) :
    Holds after.memory after.pointer bytes := by
  obtain ⟨-, -, hmemory⟩ := writer.stored hpush
  rw [hmemory]
  exact load_store _ _ _

theorem grows_push (hpush : writer.write floor before bytes = some after) : Grows before after := by
  obtain ⟨-, hpointer, hmemory⟩ := writer.stored hpush
  refine ⟨by omega, fun position hposition => ?_⟩
  rw [hmemory]
  apply store_outside
  rintro ⟨-, hlt⟩
  dsimp only at hlt
  omega

/-- Push one block after the other. -/
def pushAll (writer : StackWriter) (floor : ℕ) : Stack → List (List UInt8) → Option Stack
  | stack, [] => some stack
  | stack, block :: blocks => do
      let pushed ← writer.write floor stack block
      pushAll writer floor pushed blocks

/-- The blocks stand one above the other, the last one at the bottom. -/
theorem pushAll_some {blocks : List (List UInt8)}
    (hpush : pushAll writer floor before blocks = some after) :
    Grows before after ∧ after.pointer + blocks.flatten.length = before.pointer
      ∧ Holds after.memory after.pointer blocks.reverse.flatten := by
  induction blocks generalizing before with
  | nil =>
    cases hpush
    exact ⟨.refl _, rfl, rfl⟩
  | cons block blocks ih =>
    obtain ⟨pushed, hblock, hrest⟩ := Option.bind_eq_some_iff.mp hpush
    obtain ⟨hgrows, hpointer, hholds⟩ := ih hrest
    obtain ⟨-, hpushed, -⟩ := writer.stored hblock
    refine ⟨(grows_push hblock).trans hgrows, ?_, ?_⟩
    · rw [List.flatten_cons, List.length_append]
      omega
    have habove : after.pointer + blocks.reverse.flatten.length = pushed.pointer := by
      have hlength : blocks.reverse.flatten.length = blocks.flatten.length := by
        simp [List.length_flatten, List.sum_reverse]
      omega
    rw [List.reverse_cons, List.flatten_append, holds_append, habove]
    refine ⟨hholds, ?_⟩
    rw [List.flatten_singleton]
    exact hgrows.holds le_rfl (holds_push hblock)

theorem exists_pushAll {blocks : List (List UInt8)}
    (hroom : floor + blocks.flatten.length ≤ before.pointer) :
    ∃ after, pushAll writer floor before blocks = some after := by
  induction blocks generalizing before with
  | nil => exact ⟨before, rfl⟩
  | cons block blocks ih =>
    rw [List.flatten_cons, List.length_append] at hroom
    obtain ⟨pushed, hpushed⟩ := @writer.succeeds floor before block (by omega)
    obtain ⟨-, hpointer, -⟩ := writer.stored hpushed
    obtain ⟨after, hafter⟩ := @ih pushed (by omega)
    exact ⟨after, Option.bind_eq_some_iff.mpr ⟨pushed, hpushed, hafter⟩⟩

end Stack

/-- The writer that fails only if there is no room. -/
def plainWriter : StackWriter where
  write floor stack bytes :=
    if floor + bytes.length ≤ stack.pointer then
      some ⟨store stack.memory (stack.pointer - bytes.length) bytes, stack.pointer - bytes.length⟩
    else none
  stored := by
    intro floor before bytes after hwrite
    obtain ⟨hroom, hafter⟩ := Option.ite_none_right_eq_some.mp hwrite
    obtain rfl := Option.some.inj hafter
    exact ⟨by dsimp only; omega, by dsimp only; omega, rfl⟩
  succeeds hroom := ⟨_, if_pos hroom⟩

end FacetOS.ByteMemory
