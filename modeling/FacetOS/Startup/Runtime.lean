import FacetOS.Startup.Launcher

/-!
# The start of the C runtime

`facet_posix_start` walks upwards from the initial stack pointer over the
argument and environment pointers to the auxiliary vector, and `lookup_auxv`
searches that vector.  Both give back what the launcher was asked to pass on.
-/

namespace FacetOS.Startup

open LittleEndian ByteMemory

/-! ## The reader -/

/-- A 32-bit `int` as a `uintptr_t`. -/
def uintptrOfInt (bits : ℕ) : ℕ :=
  if bits < 2 ^ 31 then bits else bits + (2 ^ 64 - 2 ^ 32)

/-- The value of the first entry of a type, or nothing before the terminator.
The outer option is out of fuel.  An entry's type is an `int`. -/
def lookupAuxv : ℕ → Memory → ℕ → UInt64 → Option (Option UInt64)
  | 0, _, _, _ => none
  | fuel + 1, memory, auxv, type =>
    if loadNat memory auxv 4 = 0 then some none
    else if uintptrOfInt (loadNat memory auxv 4) = type.toNat then
      some (some (UInt64.ofNat (loadNat memory (auxv + 8) 8)))
    else lookupAuxv fuel memory (auxv + 16) type

/-- A word cast to a 32-bit `int`. -/
def intOfWord (word : ℕ) : ℤ :=
  Int.bmod word (2 ^ 32)

/-- What the runtime hands to the program. -/
structure Started where
  argc : ℤ
  argv : List (List UInt8)
  envp : List (List UInt8)
  auxv : ℕ
  deriving DecidableEq, Repr

/-- The texts to which the words of a vector point. -/
def loadTexts (fuel : ℕ) (memory : Memory) (pointers : List ℕ) : Option (List (List UInt8)) :=
  pointers.mapM (loadText fuel memory)

def facetPosixStart (fuel : ℕ) (memory : Memory) (stack : ℕ) : Option Started := do
  let argcWord := loadNat memory stack 8
  let argv := stack + 8
  let envp := argv + 8 * (argcWord + 1)
  let envc ← countWords fuel memory envp
  let argvTexts ← loadTexts fuel memory (loadWords memory argv (intOfWord argcWord).toNat)
  let envpTexts ← loadTexts fuel memory (loadWords memory envp envc)
  return { argc := intOfWord argcWord, argv := argvTexts, envp := envpTexts,
           auxv := envp + 8 * (envc + 1) }

/-! ## Texts -/

/-- The room a search for a terminator needs at most in these texts. -/
def longest (texts : List Text) : ℕ :=
  (texts.map fun text => text.val.length).sum

theorem loadTexts_of_textAt {process : Process} {stack : Stack} {texts : List Text}
    {pointers : List ℕ} {fuel : ℕ} (hfuel : longest texts < fuel)
    (htexts : List.Forall₂ (TextAt process stack) texts pointers) :
    loadTexts fuel stack.memory pointers = some (texts.map Subtype.val) := by
  induction htexts with
  | nil => rfl
  | @cons text pointer texts pointers htext htexts ih =>
    have htotal : longest (text :: texts) = text.val.length + longest texts := by
      simp [longest]
    have hfirst : loadText fuel stack.memory pointer = some text.val :=
      loadText_of_holds text.property (by omega) htext.holds
    have hrest := ih (by omega)
    unfold loadTexts at hrest ⊢
    simp only [List.mapM_cons, hfirst, hrest, Option.bind_eq_bind, Option.bind_some,
      Option.pure_def]
    rfl

/-! ## The auxiliary vector -/

/-- Entries that the lookup can tell from the terminator and from each other. -/
def SmallTypes (entries : List FacetAuxvEntry) : Prop :=
  ∀ entry ∈ entries, 0 < entry.type.toNat ∧ entry.type.toNat < 2 ^ 31

theorem smallTypes_of_validate {entries : List FacetAuxvEntry}
    (hvalid : facetAuxvValidate entries = true) : SmallTypes entries := by
  intro entry hentry
  simp only [facetAuxvValidate, Bool.and_eq_true, List.all_eq_true, decide_eq_true_eq] at hvalid
  obtain ⟨hlower, hupper⟩ := hvalid.1 entry hentry
  have hfrom : (0x60000000 : ℕ) ≤ entry.type.toNat := UInt64.le_iff_toNat_le.mp hlower
  have hto : entry.type.toNat ≤ 0x6fffffff := UInt64.le_iff_toNat_le.mp hupper
  omega

theorem smallTypes_auxiliaryVector (keys : RuntimeKeys) (process : Process) (phdrAddress : ℕ)
    {facetAuxv : List FacetAuxvEntry} (hvalid : facetAuxvValidate facetAuxv = true) :
    SmallTypes (auxiliaryVector keys process phdrAddress facetAuxv) := by
  have hipc : 0 < keys.ipcBufferPtr.toNat ∧ keys.ipcBufferPtr.toNat < 2 ^ 31 :=
    ⟨keys.ipcBufferPtr_pos, keys.ipcBufferPtr_lt⟩
  have htcb : 0 < keys.tcb.toNat ∧ keys.tcb.toNat < 2 ^ 31 := ⟨keys.tcb_pos, keys.tcb_lt⟩
  intro entry hentry
  rw [auxiliaryVector, List.mem_append, List.mem_append] at hentry
  obtain (hstandard | hsysinfo) | hfacet := hentry
  · simp only [List.mem_cons, List.not_mem_nil, or_false] at hstandard
    obtain rfl | rfl | rfl | rfl | rfl | rfl := hstandard
    · exact ⟨by change 0 < atPagesz.toNat; decide, by change atPagesz.toNat < 2 ^ 31; decide⟩
    · exact ⟨by change 0 < atPhdr.toNat; decide, by change atPhdr.toNat < 2 ^ 31; decide⟩
    · exact ⟨by change 0 < atPhnum.toNat; decide, by change atPhnum.toNat < 2 ^ 31; decide⟩
    · decide
    · exact hipc
    · exact htcb
  · split at hsysinfo
    · obtain rfl := List.mem_singleton.mp hsysinfo
      exact ⟨by change 0 < atSysinfo.toNat; decide, by change atSysinfo.toNat < 2 ^ 31; decide⟩
    · cases hsysinfo
  · exact smallTypes_of_validate hvalid entry hfacet

/-- The four low-order bytes of a small word. -/
theorem loadNat_low {memory : Memory} {address value : ℕ} (hvalue : value < 2 ^ 31)
    (hholds : Holds memory address (leBytes 8 value)) : loadNat memory address 4 = value := by
  have hsplit : leBytes 8 value = leBytes 4 value ++ leBytes 4 (value / 2 ^ 32) := by
    simp [leBytes, Nat.div_div_eq_div_mul]
  rw [hsplit, holds_append] at hholds
  exact hholds.1.loadNat (by omega)

/-- The lookup finds the first entry of a type. -/
theorem lookupAuxv_of_holds {memory : Memory} {auxv fuel : ℕ} {entries : List FacetAuxvEntry}
    (hsmall : SmallTypes entries) (hfuel : entries.length < fuel)
    (hholds : Holds memory auxv (wordBytes (auxvWords entries ++ [0, 0]))) (type : UInt64) :
    lookupAuxv fuel memory auxv type
      = some ((entries.find? fun entry => entry.type = type).map FacetAuxvEntry.value) := by
  induction entries generalizing auxv fuel with
  | nil =>
    obtain ⟨fuel, rfl⟩ := Nat.exists_eq_succ_of_ne_zero (Nat.ne_of_gt hfuel)
    have hwords : Holds memory auxv (leBytes 8 0 ++ wordBytes [0]) := hholds
    have hzero : loadNat memory auxv 4 = 0 :=
      loadNat_low (by omega) (holds_append.mp hwords).1
    simp [lookupAuxv, hzero]
  | cons entry entries ih =>
    obtain ⟨fuel, rfl⟩ := Nat.exists_eq_succ_of_ne_zero (Nat.ne_of_gt (Nat.zero_lt_of_lt hfuel))
    have hwords : Holds memory auxv (leBytes 8 entry.type.toNat
        ++ (leBytes 8 entry.value.toNat ++ wordBytes (auxvWords entries ++ [0, 0]))) := by
      simpa [auxvWords] using hholds
    rw [holds_append, holds_append, length_leBytes, length_leBytes] at hwords
    obtain ⟨htype, hvalue, hrest⟩ := hwords
    obtain ⟨hpos, hlt⟩ := hsmall entry List.mem_cons_self
    have htypeWord : loadNat memory auxv 4 = entry.type.toNat := loadNat_low hlt htype
    have hvalueWord : loadNat memory (auxv + 8) 8 = entry.value.toNat :=
      hvalue.loadNat entry.value.toNat_lt
    rw [lookupAuxv, htypeWord, hvalueWord, if_neg (Nat.ne_of_gt hpos), uintptrOfInt, if_pos hlt]
    by_cases hfound : entry.type = type
    · simp [hfound]
    · have hother : entry.type.toNat ≠ type.toNat := fun habsurd =>
        hfound (UInt64.toNat_inj.mp habsurd)
      rw [if_neg hother, List.find?_cons_of_neg (by simpa using hfound)]
      exact ih (fun other hother => hsmall other (List.mem_cons_of_mem _ hother))
        (Nat.lt_of_succ_lt_succ hfuel) hrest

/-! ## Agreement -/

/-- The runtime finds these arguments, this environment and this auxiliary vector
on the stack, given enough fuel, and the stack pointer is aligned for calls. -/
structure Agrees (stack : Stack) (argv envp : List Text) (auxv : List FacetAuxvEntry) : Prop where
  aligned : stack.pointer % stackCallAlignment = 0
  decoded : ∃ enough, ∀ fuel, enough ≤ fuel → ∃ address,
    facetPosixStart fuel stack.memory stack.pointer
      = some { argc := argv.length, argv := argv.map Subtype.val,
               envp := envp.map Subtype.val, auxv := address }
    ∧ ∀ type, lookupAuxv fuel stack.memory address type
      = some ((auxv.find? fun entry => entry.type = type).map FacetAuxvEntry.value)

theorem bounds_of_textAt {process : Process} {stack : Stack} {texts : List Text}
    {pointers : List ℕ} (htexts : List.Forall₂ (TextAt process stack) texts pointers) :
    ∀ pointer ∈ pointers, pointer ≠ 0 ∧ pointer < 2 ^ 64 := by
  induction htexts with
  | nil => simp
  | cons htext _ ih =>
    intro pointer hpointer
    cases hpointer with
    | head => exact ⟨Nat.ne_of_gt htext.pos, htext.lt⟩
    | tail _ hrest => exact ih pointer hrest

/-- An image is read back as it was meant. -/
theorem Image.agrees {process : Process} {argv envp : List Text} {auxv : List FacetAuxvEntry}
    {stack : Stack} (himage : Image process argv envp auxv stack)
    (hcount : argv.length < 2 ^ 31) (hsmall : SmallTypes auxv) : Agrees stack argv envp auxv := by
  obtain ⟨childArgv, childEnvp, hargv, henvp, hframe⟩ := himage.frame
  have hargc : childArgv.length = argv.length := hargv.length_eq.symm
  have henvc : childEnvp.length = envp.length := henvp.length_eq.symm
  have hargvWords := bounds_of_textAt hargv
  have henvpWords := bounds_of_textAt henvp
  -- The four parts of the frame, each at the address the reader computes for it.
  have hwords : Holds stack.memory stack.pointer (leBytes 8 childArgv.length
      ++ (wordBytes childArgv ++ (wordBytes [0] ++ (wordBytes (childEnvp ++ [0])
        ++ wordBytes (auxvWords auxv ++ [0, 0]))))) := by
    simpa [frameWords] using hframe
  rw [holds_append, holds_append, holds_append, holds_append] at hwords
  simp only [length_leBytes, length_wordBytes, List.length_append, List.length_singleton] at hwords
  obtain ⟨hcountWord, hargvVector, -, henvpVector, hauxvVector⟩ := hwords
  have hargcWord : loadNat stack.memory stack.pointer 8 = childArgv.length :=
    hcountWord.loadNat (by omega)
  have henvpAddress : stack.pointer + 8 + 8 * childArgv.length + 8 * 1
      = stack.pointer + 8 + 8 * (childArgv.length + 1) := by
    omega
  rw [henvpAddress] at henvpVector hauxvVector
  refine ⟨himage.aligned, longest argv + longest envp + envp.length + auxv.length + 1,
    fun fuel hfuel => ⟨_, ?_, lookupAuxv_of_holds hsmall (by omega) hauxvVector⟩⟩
  have hint : intOfWord childArgv.length = childArgv.length := by
    unfold intOfWord
    apply Int.bmod_eq_of_le <;> omega
  have henvcWord : countWords fuel stack.memory
      (stack.pointer + 8 + 8 * (childArgv.length + 1)) = some childEnvp.length :=
    countWords_of_holds henvpWords (by omega) henvpVector
  have hargvLoaded := loadWords_of_holds (fun word hword => (hargvWords word hword).2) hargvVector
  have henvpLoaded := loadWords_of_holds (fun word hword => (henvpWords word hword).2)
    (by rw [wordBytes_append, holds_append] at henvpVector; exact henvpVector.1)
  have hargvTexts := loadTexts_of_textAt (by omega : longest argv < fuel) hargv
  have henvpTexts := loadTexts_of_textAt (by omega : longest envp < fuel) henvp
  simp only [facetPosixStart, hargcWord, henvcWord, hint, Int.toNat_natCast, hargvLoaded,
    henvpLoaded, hargvTexts, henvpTexts, Option.bind_eq_bind, Option.bind_some, Option.pure_def]
  rw [hargc]

/-- Whatever the launcher builds is read back by the runtime as the arguments, the
environment and the auxiliary vector it was built from; and it is built for every
valid input that the stack has room for. -/
theorem launcher_agrees_with_runtime (writer : StackWriter) (keys : RuntimeKeys)
    (process : Process) (memory : Memory) (argv : Arguments) (envp : List Text)
    (facetAuxv : List FacetAuxvEntry) :
    (∀ stack, spawnProcessWithAuxv writer keys process memory argv envp facetAuxv = some stack →
      Agrees stack argv.texts envp (auxiliaryVector keys process process.phdrAddress facetAuxv)
        ∧ Holds stack.memory process.phdrAddress process.phdrBytes)
    ∧ (1 ≤ argv.texts.length → facetAuxvValidate facetAuxv = true →
      process.stackBase + imageRoom process argv envp
        (auxiliaryVector keys process process.phdrAddress facetAuxv).length ≤ process.stackTop →
      ∃ stack,
        spawnProcessWithAuxv writer keys process memory argv envp facetAuxv = some stack) := by
  constructor
  · intro stack hspawn
    have himage := image_of_spawn hspawn
    have hvalid := (spawnProcessWithAuxv_some hspawn).1
    exact ⟨himage.agrees argv.count_lt (smallTypes_auxiliaryVector keys process _ hvalid),
      himage.headers⟩
  · exact exists_spawn

/-- A process with one page of stack and no program headers. -/
def onePageProcess : Process where
  stackBase := 4096
  stackTop := 8192
  page_le_base := le_rfl
  word_le_stack := by decide
  top_lt := by decide
  elfPhdrs := []
  pagesz := 4096
  ipcBufferAddr := 0x10000
  destTcbCptr := 1
  sysinfo := 0

def smallKeys : RuntimeKeys where
  ipcBufferPtr := 64
  tcb := 65
  ipcBufferPtr_pos := by decide
  ipcBufferPtr_lt := by decide
  tcb_pos := by decide
  tcb_lt := by decide

/-- The arguments of `sh -c` in an environment of one variable. -/
def shellArguments : Arguments where
  texts := [⟨[115, 104], by decide⟩, ⟨[45, 99], by decide⟩]
  count_lt := by decide

theorem launcher_agrees_with_runtime_shell :
    ∃ stack, spawnProcessWithAuxv plainWriter smallKeys onePageProcess (fun _ => 0) shellArguments
        [⟨[65, 61, 66], by decide⟩] [⟨atLoos, 1⟩] = some stack
      ∧ Agrees stack shellArguments.texts [⟨[65, 61, 66], by decide⟩]
        (auxiliaryVector smallKeys onePageProcess onePageProcess.phdrAddress [⟨atLoos, 1⟩]) := by
  obtain ⟨hagrees, hbuilt⟩ := launcher_agrees_with_runtime plainWriter smallKeys onePageProcess
    (fun _ => 0) shellArguments [⟨[65, 61, 66], by decide⟩] [⟨atLoos, 1⟩]
  obtain ⟨stack, hstack⟩ := hbuilt (by decide) (by decide) (by decide)
  exact ⟨stack, hstack, (hagrees stack hstack).1⟩

end FacetOS.Startup
