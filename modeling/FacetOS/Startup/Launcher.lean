import FacetOS.Core.Stack

/-!
# The initial stack of a child

`spawn_process_with_auxv` writes the program headers, the argument and
environment texts and, below them, the frame that a C runtime expects: argument
count, argument pointers, environment pointers and auxiliary vector.
-/

namespace FacetOS.Startup

open LittleEndian ByteMemory

/-! ## Inputs -/

/-- The bytes of a C string before its terminator. -/
def Text := { bytes : List UInt8 // 0 ∉ bytes }

structure FacetAuxvEntry where
  type : UInt64
  value : UInt64
  deriving DecidableEq, Repr

def atLoos : UInt64 := 0x60000000

def atHios : UInt64 := 0x6fffffff

def atPhdr : UInt64 := 3

def atPhent : UInt64 := 4

def atPhnum : UInt64 := 5

def atPagesz : UInt64 := 6

def atSysinfo : UInt64 := 32

/-- The two keys that the runtime of the microkernel defines.  They are small
positive numbers, as all standard keys are. -/
structure RuntimeKeys where
  ipcBufferPtr : UInt64
  tcb : UInt64
  ipcBufferPtr_pos : 0 < ipcBufferPtr.toNat
  ipcBufferPtr_lt : ipcBufferPtr.toNat < 2 ^ 31
  tcb_pos : 0 < tcb.toNat
  tcb_lt : tcb.toNat < 2 ^ 31

/-- What a configured process says about its stack and its start. -/
structure Process where
  stackBase : ℕ
  stackTop : ℕ
  /-- The first page is no stack. -/
  page_le_base : 4096 ≤ stackBase
  word_le_stack : stackBase + 8 ≤ stackTop
  top_lt : stackTop < 2 ^ 64
  elfPhdrs : List (Vector UInt8 56)
  pagesz : UInt64
  ipcBufferAddr : UInt64
  destTcbCptr : UInt64
  sysinfo : UInt64

/-- An argument vector, whose count is a C `int`. -/
structure Arguments where
  texts : List Text
  count_lt : texts.length < 2 ^ 31

/-! ## The writer -/

def facetAuxvValidate (entries : List FacetAuxvEntry) : Bool :=
  entries.all (fun entry => atLoos ≤ entry.type && entry.type ≤ atHios)
    && decide (entries.map FacetAuxvEntry.type).Nodup

/-- `stack_push`, over the writer that stands for `sel4utils_stack_write`. -/
def stackPush (writer : StackWriter) (process : Process) (stack : Stack) (bytes : List UInt8) :
    Option Stack :=
  writer.write process.stackBase stack bytes

/-- The stack pointer after a text, rounded down to four. -/
def roundDown (pointer : ℕ) : ℕ :=
  pointer - pointer % 4

/-- The addresses of the texts and the stack that holds them. -/
def pushTexts (writer : StackWriter) (process : Process) :
    Stack → List Text → Option (List ℕ × Stack)
  | stack, [] => some ([], stack)
  | stack, text :: texts => do
      let pushed ← stackPush writer process stack (text.val ++ [0])
      let (pointers, after) ←
        pushTexts writer process { pushed with pointer := roundDown pushed.pointer } texts
      return (pushed.pointer :: pointers, after)

def Process.phdrBytes (process : Process) : List UInt8 :=
  process.elfPhdrs.flatMap Vector.toList

/-- The entries that `ADD_AUXV` collects, in their order. -/
def auxiliaryVector (keys : RuntimeKeys) (process : Process) (phdrAddress : ℕ)
    (facetAuxv : List FacetAuxvEntry) : List FacetAuxvEntry :=
  [⟨atPagesz, process.pagesz⟩,
    ⟨atPhdr, UInt64.ofNat phdrAddress⟩,
    ⟨atPhnum, UInt64.ofNat process.elfPhdrs.length⟩,
    ⟨atPhent, 56⟩,
    ⟨keys.ipcBufferPtr, process.ipcBufferAddr⟩,
    ⟨keys.tcb, process.destTcbCptr⟩]
  ++ (if process.sysinfo ≠ 0 then [⟨atSysinfo, process.sysinfo⟩] else [])
  ++ facetAuxv

def auxvWords (entries : List FacetAuxvEntry) : List ℕ :=
  entries.flatMap fun entry => [entry.type.toNat, entry.value.toNat]

def frameSize (argc envc auxc : ℕ) : ℕ :=
  16 * (auxc + 1) + 8 * (envc + 1) + 8 * (argc + 1) + 8

def stackCallAlignment : ℕ := 16

/-- How far the stack pointer moves down so that it ends up aligned.  The
difference is taken in 64 bits. -/
def alignmentGap (pointer size : ℕ) : ℕ :=
  (pointer + 2 ^ 64 - size % 2 ^ 64) % 2 ^ 64 % stackCallAlignment

/-- The stack whose pointer leaves that gap. -/
def alignFor (stack : Stack) (size : ℕ) : Stack :=
  { stack with pointer := stack.pointer - alignmentGap stack.pointer size }

/-- The last pushes, in their order. -/
def frameBlocks (auxv : List FacetAuxvEntry) (childEnvp childArgv : List ℕ) :
    List (List UInt8) :=
  [wordBytes [0, 0], wordBytes (auxvWords auxv), wordBytes [0]]
    ++ (if childEnvp.length ≠ 0 then [wordBytes childEnvp] else [])
    ++ [wordBytes [0], wordBytes childArgv, wordBytes [childArgv.length]]

/-- The stack with which the child starts. -/
def spawnProcessWithAuxv (writer : StackWriter) (keys : RuntimeKeys) (process : Process)
    (memory : Memory) (argv : Arguments) (envp : List Text) (facetAuxv : List FacetAuxvEntry) :
    Option Stack := do
  guard (1 ≤ argv.texts.length ∧ facetAuxvValidate facetAuxv = true)
  let headers ← stackPush writer process ⟨memory, process.stackTop - 8⟩ process.phdrBytes
  let (childArgv, arguments) ← pushTexts writer process headers argv.texts
  let (childEnvp, environment) ← pushTexts writer process arguments envp
  let auxv := auxiliaryVector keys process headers.pointer facetAuxv
  let size := frameSize argv.texts.length envp.length auxv.length
  Stack.pushAll writer process.stackBase (alignFor environment size)
    (frameBlocks auxv childEnvp childArgv)

/-! ## Texts on the stack -/

/-- A text stands at this address. -/
structure TextAt (process : Process) (stack : Stack) (text : Text) (pointer : ℕ) : Prop where
  holds : Holds stack.memory pointer (text.val ++ [0])
  above : stack.pointer ≤ pointer
  pos : 0 < pointer
  lt : pointer < 2 ^ 64

variable {process : Process} {writer : StackWriter}

theorem TextAt.grows {before after : Stack} {text : Text} {pointer : ℕ}
    (htext : TextAt process before text pointer) (hgrows : before.Grows after) :
    TextAt process after text pointer where
  holds := hgrows.holds htext.above htext.holds
  above := hgrows.pointer_le.trans htext.above
  pos := htext.pos
  lt := htext.lt

theorem le_roundDown (pointer : ℕ) : pointer ≤ roundDown pointer + 3 := by
  unfold roundDown
  omega

theorem pushTexts_cons {before after : Stack} {text : Text} {texts : List Text} {pointers : List ℕ}
    (hpush : pushTexts writer process before (text :: texts) = some (pointers, after)) :
    ∃ pushed rest, stackPush writer process before (text.val ++ [0]) = some pushed
      ∧ pushTexts writer process { pushed with pointer := roundDown pushed.pointer } texts
        = some (rest, after)
      ∧ pointers = pushed.pointer :: rest := by
  obtain ⟨pushed, hpushed, hrest⟩ := Option.bind_eq_some_iff.mp hpush
  obtain ⟨⟨rest, final⟩, hfinal, hresult⟩ := Option.bind_eq_some_iff.mp hrest
  cases hresult
  exact ⟨pushed, rest, hpushed, hfinal, rfl⟩

theorem pushTexts_some {before after : Stack} {texts : List Text}
    {pointers : List ℕ} (hbound : before.pointer < 2 ^ 64)
    (hpush : pushTexts writer process before texts = some (pointers, after)) :
    before.Grows after ∧ List.Forall₂ (TextAt process after) texts pointers := by
  induction texts generalizing before pointers with
  | nil =>
    cases hpush
    exact ⟨.refl _, .nil⟩
  | cons text texts ih =>
    obtain ⟨pushed, rest, hpushed, hrest, rfl⟩ := pushTexts_cons hpush
    have hgrows : before.Grows pushed := Stack.grows_push hpushed
    have hpointer := hgrows.pointer_le
    have hlower : roundDown pushed.pointer ≤ pushed.pointer := Nat.sub_le _ _
    obtain ⟨hafter, htexts⟩ := ih (by dsimp only; omega) hrest
    have hrounded : pushed.Grows { pushed with pointer := roundDown pushed.pointer } :=
      (Stack.Grows.refl pushed).lower hlower
    obtain ⟨hfloor, -, -⟩ := writer.stored hpushed
    have hbase := process.page_le_base
    have htext : TextAt process pushed text pushed.pointer :=
      ⟨Stack.holds_push hpushed, le_rfl, by omega, by omega⟩
    exact ⟨(hgrows.trans hrounded).trans hafter,
      .cons (htext.grows (hrounded.trans hafter)) htexts⟩

/-- The room that texts take at most, terminators and rounding included. -/
def textsRoom (texts : List Text) : ℕ :=
  (texts.map fun text => text.val.length + 4).sum

theorem exists_pushTexts {before : Stack} {texts : List Text} {room : ℕ}
    (hroom : process.stackBase + textsRoom texts + room ≤ before.pointer) :
    ∃ pointers after, pushTexts writer process before texts = some (pointers, after)
      ∧ process.stackBase + room ≤ after.pointer := by
  induction texts generalizing before with
  | nil => exact ⟨[], before, rfl, by simpa [textsRoom] using hroom⟩
  | cons text texts ih =>
    have htotal : textsRoom (text :: texts) = text.val.length + 4 + textsRoom texts := by
      simp [textsRoom]
    obtain ⟨pushed, hpushed⟩ :
        ∃ pushed, stackPush writer process before (text.val ++ [0]) = some pushed :=
      writer.succeeds (by simp only [List.length_append, List.length_singleton]; omega)
    obtain ⟨-, hpointer, -⟩ := writer.stored hpushed
    rw [List.length_append, List.length_singleton] at hpointer
    have hlower := le_roundDown pushed.pointer
    obtain ⟨pointers, after, hrest, hleft⟩ :=
      @ih { pushed with pointer := roundDown pushed.pointer } (by dsimp only; omega)
    refine ⟨pushed.pointer :: pointers, after, ?_, hleft⟩
    exact Option.bind_eq_some_iff.mpr ⟨pushed, hpushed, by rw [hrest]; rfl⟩

/-! ## The frame -/

/-- The words of the frame, from the stack pointer upwards. -/
def frameWords (auxv : List FacetAuxvEntry) (childEnvp childArgv : List ℕ) : List ℕ :=
  childArgv.length :: (childArgv ++ [0]) ++ (childEnvp ++ [0]) ++ (auxvWords auxv ++ [0, 0])

theorem frameBlocks_reverse (auxv : List FacetAuxvEntry) (childEnvp childArgv : List ℕ) :
    (frameBlocks auxv childEnvp childArgv).reverse.flatten
      = wordBytes (frameWords auxv childEnvp childArgv) := by
  unfold frameBlocks frameWords
  split_ifs with henvp
  · simp
  · have hempty : childEnvp = [] := List.eq_nil_of_length_eq_zero (not_not.mp henvp)
    simp [hempty]

theorem length_auxvWords (entries : List FacetAuxvEntry) :
    (auxvWords entries).length = 2 * entries.length := by
  induction entries with
  | nil => rfl
  | cons entry entries ih =>
    simp only [auxvWords, List.flatMap_cons, List.length_append, List.length_cons] at ih ⊢
    simp only [List.length_nil, ih]
    omega

theorem length_frameBlocks (auxv : List FacetAuxvEntry) (childEnvp childArgv : List ℕ) :
    (frameBlocks auxv childEnvp childArgv).flatten.length
      = frameSize childArgv.length childEnvp.length auxv.length := by
  have hlength : (frameBlocks auxv childEnvp childArgv).reverse.flatten.length
      = (frameBlocks auxv childEnvp childArgv).flatten.length := by
    simp [List.length_flatten, List.sum_reverse]
  rw [← hlength, frameBlocks_reverse, length_wordBytes]
  simp only [frameWords, List.length_append, List.length_cons, length_auxvWords, List.length_nil,
    frameSize]
  omega

/-- The gap makes the frame end at an aligned address, whatever its size. -/
theorem aligned_of_alignFor {stack : Stack} {size final : ℕ} (hpointer : stack.pointer < 2 ^ 64)
    (hsize : 0 < size) (hfinal : final + size = (alignFor stack size).pointer) :
    final % stackCallAlignment = 0 := by
  have hgap : final + size = stack.pointer - alignmentGap stack.pointer size := hfinal
  have hmod : alignmentGap stack.pointer size = (stack.pointer - size) % 16 := by
    have hsize : size % 2 ^ 64 = size := Nat.mod_eq_of_lt (by omega)
    rw [alignmentGap, hsize, stackCallAlignment]
    omega
  rw [stackCallAlignment]
  omega

/-! ## The image -/

/-- The address at which the program headers stand. -/
def Process.phdrAddress (process : Process) : ℕ :=
  process.stackTop - 8 - process.phdrBytes.length

/-- What the stack of a started child holds. -/
structure Image (process : Process) (argv envp : List Text) (auxv : List FacetAuxvEntry)
    (stack : Stack) : Prop where
  aligned : stack.pointer % stackCallAlignment = 0
  headers : Holds stack.memory process.phdrAddress process.phdrBytes
  frame : ∃ childArgv childEnvp, List.Forall₂ (TextAt process stack) argv childArgv
    ∧ List.Forall₂ (TextAt process stack) envp childEnvp
    ∧ Holds stack.memory stack.pointer (wordBytes (frameWords auxv childEnvp childArgv))

variable {keys : RuntimeKeys} {memory : Memory} {argv : Arguments}
  {envp : List Text} {facetAuxv : List FacetAuxvEntry}

section

variable {stack : Stack}
  (hspawn : spawnProcessWithAuxv writer keys process memory argv envp facetAuxv = some stack)
include hspawn

/-- The stages of a successful start. -/
theorem spawnProcessWithAuxv_some :
    facetAuxvValidate facetAuxv = true ∧ ∃ headers childArgv arguments childEnvp environment,
      stackPush writer process ⟨memory, process.stackTop - 8⟩ process.phdrBytes = some headers
        ∧ pushTexts writer process headers argv.texts = some (childArgv, arguments)
        ∧ pushTexts writer process arguments envp = some (childEnvp, environment)
        ∧ Stack.pushAll writer process.stackBase
          (alignFor environment (frameSize argv.texts.length envp.length
            (auxiliaryVector keys process headers.pointer facetAuxv).length))
          (frameBlocks (auxiliaryVector keys process headers.pointer facetAuxv)
            childEnvp childArgv) = some stack := by
  obtain ⟨_, hguard, hspawn⟩ := Option.bind_eq_some_iff.mp hspawn
  obtain ⟨headers, hheaders, hspawn⟩ := Option.bind_eq_some_iff.mp hspawn
  obtain ⟨⟨childArgv, arguments⟩, hargv, hspawn⟩ := Option.bind_eq_some_iff.mp hspawn
  obtain ⟨⟨childEnvp, environment⟩, henvp, hspawn⟩ := Option.bind_eq_some_iff.mp hspawn
  have hvalid : 1 ≤ argv.texts.length ∧ facetAuxvValidate facetAuxv = true := by
    by_contra habsurd
    simp [guard, habsurd] at hguard
  exact ⟨hvalid.2, headers, childArgv, arguments, childEnvp, environment, hheaders, hargv, henvp,
    hspawn⟩

theorem image_of_spawn :
    Image process argv.texts envp
      (auxiliaryVector keys process process.phdrAddress facetAuxv) stack := by
  obtain ⟨-, headers, childArgv, arguments, childEnvp, environment, hheaders, hargv, henvp,
    hframe⟩ := spawnProcessWithAuxv_some hspawn
  have htop := process.top_lt
  obtain ⟨hfloor, hpointer, -⟩ := writer.stored hheaders
  have haddress : headers.pointer = process.phdrAddress := by
    unfold Process.phdrAddress
    dsimp only at hpointer
    omega
  dsimp only at hpointer
  obtain ⟨hgrowsArgv, htextsArgv⟩ := pushTexts_some (by omega) hargv
  have hleArgv := hgrowsArgv.pointer_le
  obtain ⟨hgrowsEnvp, htextsEnvp⟩ := pushTexts_some (by omega) henvp
  have hleEnvp := hgrowsEnvp.pointer_le
  obtain ⟨hgrows, hfinal, hholds⟩ := Stack.pushAll_some hframe
  have hrest := ((Stack.Grows.refl environment).lower (Nat.sub_le _ _)).trans hgrows
  have hargc : childArgv.length = argv.texts.length := htextsArgv.length_eq.symm
  have henvc : childEnvp.length = envp.length := htextsEnvp.length_eq.symm
  rw [length_frameBlocks, hargc, henvc] at hfinal
  refine ⟨?_, ?_, childArgv, childEnvp, ?_, ?_, ?_⟩
  · exact aligned_of_alignFor (by omega) (by unfold frameSize; omega) hfinal
  · rw [← haddress]
    exact ((hgrowsArgv.trans hgrowsEnvp).trans hrest).holds le_rfl (Stack.holds_push hheaders)
  · exact htextsArgv.imp fun _ _ htext => htext.grows (hgrowsEnvp.trans hrest)
  · exact htextsEnvp.imp fun _ _ htext => htext.grows hrest
  · rw [frameBlocks_reverse, haddress] at hholds
    exact hholds

end

/-- The room that a start takes at most. -/
def imageRoom (process : Process) (argv : Arguments) (envp : List Text)
    (auxc : ℕ) : ℕ :=
  8 + process.phdrBytes.length + textsRoom argv.texts + textsRoom envp + 15
    + frameSize argv.texts.length envp.length auxc

/-- A start succeeds when its inputs are valid and the stack is large enough. -/
theorem exists_spawn (hargv : 1 ≤ argv.texts.length) (hvalid : facetAuxvValidate facetAuxv = true)
    (hroom : process.stackBase + imageRoom process argv envp
      (auxiliaryVector keys process process.phdrAddress facetAuxv).length ≤ process.stackTop) :
    ∃ stack, spawnProcessWithAuxv writer keys process memory argv envp facetAuxv = some stack := by
  unfold imageRoom at hroom
  obtain ⟨headers, hheaders⟩ : ∃ headers, stackPush writer process ⟨memory, process.stackTop - 8⟩
      process.phdrBytes = some headers :=
    writer.succeeds (by dsimp only; omega)
  obtain ⟨-, hpointer, -⟩ := writer.stored hheaders
  have haddress : headers.pointer = process.phdrAddress := by
    unfold Process.phdrAddress
    dsimp only at hpointer
    omega
  dsimp only at hpointer
  obtain ⟨size, hsize⟩ : ∃ size, frameSize argv.texts.length envp.length
      (auxiliaryVector keys process process.phdrAddress facetAuxv).length = size := ⟨_, rfl⟩
  rw [hsize] at hroom
  obtain ⟨childArgv, arguments, harguments, hleft⟩ :=
    @exists_pushTexts process writer headers argv.texts (textsRoom envp + 15 + size) (by omega)
  obtain ⟨childEnvp, environment, henvironment, hrest⟩ :=
    @exists_pushTexts process writer arguments envp (15 + size) (by omega)
  have htop := process.top_lt
  obtain ⟨hgrowsArgv, htextsArgv⟩ := pushTexts_some (by omega) harguments
  have hleArgv := hgrowsArgv.pointer_le
  obtain ⟨-, htextsEnvp⟩ := pushTexts_some (by omega) henvironment
  have hgap : alignmentGap environment.pointer size < 16 := Nat.mod_lt _ (by decide)
  obtain ⟨stack, hstack⟩ := @Stack.exists_pushAll process.stackBase
    (alignFor environment size) writer
    (frameBlocks (auxiliaryVector keys process process.phdrAddress facetAuxv) childEnvp childArgv)
    (by
      rw [length_frameBlocks, ← htextsArgv.length_eq, ← htextsEnvp.length_eq, hsize, alignFor]
      dsimp only
      omega)
  refine ⟨stack, ?_⟩
  rw [← hsize, ← haddress] at hstack
  have hguard : (guard (1 ≤ argv.texts.length ∧ facetAuxvValidate facetAuxv = true) : Option Unit)
      = some () := if_pos ⟨hargv, hvalid⟩
  exact Option.bind_eq_some_iff.mpr ⟨(), hguard, Option.bind_eq_some_iff.mpr ⟨headers, hheaders,
    Option.bind_eq_some_iff.mpr ⟨(childArgv, arguments), harguments,
      Option.bind_eq_some_iff.mpr ⟨(childEnvp, environment), henvironment, hstack⟩⟩⟩⟩

end FacetOS.Startup
