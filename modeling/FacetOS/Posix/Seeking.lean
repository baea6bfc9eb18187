import FacetOS.Posix.Calls
import FacetOS.Core.Checked
import FacetOS.FileView.Refinement

/-!
# Seeking

The two kinds of descriptor that have an offset guard it against overflow in two
ways.  Here each signed operation of the guards is checked, and the offset that
`posix_seek` computes is compared with the exact sum.
-/

namespace FacetOS.Posix

open Process FileView Attempts Checked
open Initrd (slash)

/-! ## The signed operations -/

/-- The guard of a synthetic file; without a base the source takes -1 for it. -/
def seekMemorySigned (base : Option ℤ) (offset : ℤ) : Except Fault (Option ℤ) :=
  let base := base.getD (-1)
  if base < 0 then .ok none
  else do
    let least ← signed64 (-base)
    if offset < least then return none
    else
      let sum ← signed64 (base + offset)
      return if sum < 0 then none else some sum

/-- The guard of a file; the second comparison is made only if the first fails. -/
def seekFileSigned (base : Option ℤ) (offset : ℤ) : Except Fault (Option ℤ) :=
  match base with
  | none => .ok none
  | some base => do
      let low ← (if offset < 0 then (signed64 (-offset)).map (fun least => decide (base < least))
        else .ok false)
      let high ← (if low = false ∧ 0 < offset then
          (signed64 (2 ^ 63 - 1 - offset)).map (fun greatest => decide (greatest < base))
        else .ok false)
      if low ∨ high then return none else (signed64 (base + offset)).map some

/-! ## Exact sums -/

/-- What the offset is counted from. -/
def exactBase (position size : UInt64) : Whence → Option ℕ
  | .set => some 0
  | .current => some position.toNat
  | .fromEnd => some size.toNat
  | .other => none

/-- The sum, if there is a base and the sum is neither negative nor above `INT64_MAX`. -/
def exactTarget (base : Option ℕ) (offset : ℤ) : Option ℕ :=
  base.bind fun base =>
    if 0 ≤ base + offset ∧ base + offset < 2 ^ 63 then some (base + offset).toNat else none

/-- The base as a word; the source reads it as a signed one. -/
def baseWord (position size : UInt64) : Whence → Option UInt64
  | .set => some 0
  | .current => some position
  | .fromEnd => some size
  | .other => none

theorem seekBase_eq (position size : UInt64) (whence : Whence) :
    seekBase position size whence = (baseWord position size whence).map UInt64.toInt64 := by
  cases whence <;> rfl

theorem exactBase_eq (position size : UInt64) (whence : Whence) :
    exactBase position size whence = (baseWord position size whence).map UInt64.toNat := by
  cases whence <;> rfl

section Words

variable (base : UInt64) (offset : Int64)

theorem toUInt64_exact {base : UInt64} {offset : Int64} (hleast : 0 ≤ base.toNat + offset.toInt)
    (hgreatest : base.toNat + offset.toInt < 2 ^ 63) :
    (base.toInt64 + offset).toUInt64 = ((base.toNat + offset.toInt).toNat).toUInt64 := by
  apply UInt64.toNat_inj.mp
  have hsum := toNat_add_toUInt64 base offset
  rw [Nat.toUInt64_eq, UInt64.toNat_ofNat']
  omega

/-- The guard of a synthetic file is exact even where the sum overflows: the wrapped sum
is negative. -/
theorem seekMemory_eq :
    seekMemory (some base.toInt64) offset
      = if base.toNat < 2 ^ 63 then
          (exactTarget (some base.toNat) offset.toInt).map Nat.toUInt64
        else none := by
  have hoffset' := offset.toInt_lt
  have hbase := base.toNat_lt
  have hsigned := toInt_toInt64 base
  simp only [seekMemory, Option.getD_some, Int64.lt_iff_toInt_lt, toInt_neg_cond, toInt_add_cond,
    Int64.toInt_zero, exactTarget, Option.bind_some]
  by_cases hsmall : base.toNat < 2 ^ 63
  · rw [if_pos hsmall] at hsigned ⊢
    by_cases hexact : 0 ≤ base.toNat + offset.toInt ∧ base.toNat + offset.toInt < 2 ^ 63
    · rw [if_pos hexact, Option.map_some, ← toUInt64_exact hexact.1 hexact.2, if_neg]
      rw [hsigned]
      split_ifs <;> omega
    · rw [if_neg hexact, Option.map_none, if_pos]
      rw [hsigned]
      split_ifs <;> omega
  · rw [if_neg hsmall] at hsigned ⊢
    rw [if_pos (.inl (by omega))]

/-- The guard of a file is exact but for the least offset. -/
theorem seekFile_eq (hbase : base.toNat < 2 ^ 63) (hoffset : offset.toInt ≠ -2 ^ 63) :
    seekFile (some base.toInt64) offset
      = (exactTarget (some base.toNat) offset.toInt).map Nat.toUInt64 := by
  have hsigned := toInt_toInt64 base
  have hlimit := @toInt_maxValue_sub offset
  rw [if_pos hbase] at hsigned
  simp only [seekFile, Option.bind_eq_bind, Option.bind_some, Int64.lt_iff_toInt_lt,
    toInt_neg_cond, Int64.toInt_zero, exactTarget, if_neg hoffset, hsigned]
  by_cases hexact : 0 ≤ base.toNat + offset.toInt ∧ base.toNat + offset.toInt < 2 ^ 63
  · rw [if_pos hexact, Option.map_some, ← toUInt64_exact hexact.1 hexact.2, if_neg]
    omega
  · rw [if_neg hexact, Option.map_none, if_pos]
    omega

/-- From behind `INT64_MAX` a file can only be moved by what is not negative. -/
theorem seekFile_beyond (hbase : 2 ^ 63 ≤ base.toNat) (hoffset : offset.toInt ≠ -2 ^ 63) :
    (seekFile (some base.toInt64) offset).isSome ↔ 0 ≤ offset.toInt := by
  have hgreatest := offset.toInt_lt
  have hword := base.toNat_lt
  have hsigned := toInt_toInt64 base
  have hlimit := @toInt_maxValue_sub offset
  rw [if_neg (not_lt.mpr hbase)] at hsigned
  simp only [seekFile, Option.bind_eq_bind, Option.bind_some, Int64.lt_iff_toInt_lt,
    toInt_neg_cond, Int64.toInt_zero, if_neg hoffset, hsigned]
  by_cases hnegative : offset.toInt < 0
  · rw [if_pos (.inl (by omega))]
    simpa using hnegative
  · rw [if_neg (by omega)]
    simpa using hnegative

/-! ## The checked guards -/

/-- The guard of a synthetic file overflows where the sum does. -/
theorem seekMemorySigned_isOk (hbase : base.toNat < 2 ^ 63) :
    (∃ target, seekMemorySigned (some base.toInt64.toInt) offset.toInt = .ok target)
      ↔ base.toNat + offset.toInt < 2 ^ 63 := by
  have hsigned := toInt_toInt64 base
  rw [if_pos hbase] at hsigned
  simp only [seekMemorySigned, Option.getD_some, hsigned]
  rw [if_neg (by omega), signed64_eq_ok (by omega) (by omega), ok_bind]
  by_cases hlow : offset.toInt < -(base.toNat : ℤ)
  · rw [if_pos hlow]
    exact ⟨fun _ => by omega, fun _ => ⟨none, rfl⟩⟩
  rw [if_neg hlow]
  by_cases hsum : base.toNat + offset.toInt < 2 ^ 63
  · rw [signed64_eq_ok (by omega) hsum, ok_bind]
    exact ⟨fun _ => hsum, fun _ => ⟨_, rfl⟩⟩
  · rw [signed64_eq_error (.inr (not_lt.mp hsum))]
    constructor
    · rintro ⟨target, htarget⟩
      cases htarget
    · exact fun hless => absurd hless hsum

/-- From behind `INT64_MAX` the guard of a synthetic file computes nothing. -/
theorem seekMemorySigned_beyond (hbase : 2 ^ 63 ≤ base.toNat) :
    seekMemorySigned (some base.toInt64.toInt) offset.toInt = .ok none := by
  have hword := base.toNat_lt
  have hsigned := toInt_toInt64 base
  rw [if_neg (not_lt.mpr hbase)] at hsigned
  simp only [seekMemorySigned, Option.getD_some, hsigned]
  rw [if_pos (by omega)]

/-- The guard of a file overflows at the least offset, and nowhere else. -/
theorem seekFileSigned_isOk :
    (∃ target, seekFileSigned (some base.toInt64.toInt) offset.toInt = .ok target)
      ↔ offset.toInt ≠ -2 ^ 63 := by
  have hleast := offset.le_toInt
  have hgreatest := offset.toInt_lt
  have hbase := base.toInt64.le_toInt
  have hbase' := base.toInt64.toInt_lt
  by_cases hoffset : offset.toInt = -2 ^ 63
  · simp only [seekFileSigned, hoffset, signed64]
    constructor
    · rintro ⟨target, htarget⟩
      cases htarget
    · exact fun hother => absurd rfl hother
  · refine ⟨fun _ => hoffset, fun _ => ?_⟩
    simp only [seekFileSigned]
    by_cases hnegative : offset.toInt < 0
    · rw [if_pos hnegative, signed64_eq_ok (by omega) (by omega), Except.map, ok_bind,
        if_neg (by omega), ok_bind]
      by_cases hlow : base.toInt64.toInt < -offset.toInt
      · exact ⟨none, if_pos (by simpa using hlow)⟩
      · refine ⟨some (base.toInt64.toInt + offset.toInt), ?_⟩
        rw [if_neg (by simp [hlow]), signed64_eq_ok (by omega) (by omega)]
        rfl
    · rw [if_neg hnegative, ok_bind]
      by_cases hpositive : 0 < offset.toInt
      · rw [if_pos ⟨rfl, hpositive⟩, signed64_eq_ok (by omega) (by omega), Except.map, ok_bind]
        by_cases hhigh : 2 ^ 63 - 1 - offset.toInt < base.toInt64.toInt
        · exact ⟨none, if_pos (by simpa using hhigh)⟩
        · refine ⟨some (base.toInt64.toInt + offset.toInt), ?_⟩
          rw [if_neg (by simpa using hhigh), signed64_eq_ok (by omega) (by omega)]
          rfl
      · refine ⟨some (base.toInt64.toInt + offset.toInt), ?_⟩
        rw [if_neg (by omega), ok_bind, if_neg (by simp), signed64_eq_ok (by omega) (by omega)]
        rfl

end Words

/-! ## Descriptors -/

namespace Descriptor

def position : Descriptor → UInt64
  | .memory _ position | .file _ position => position
  | _ => 0

def movedTo (position : UInt64) : Descriptor → Descriptor
  | .memory contents _ => .memory contents position
  | .file handle _ => .file handle position
  | other => other

/-- The size that `SEEK_END` counts from; only synthetic files and files that can be asked
have one. -/
def size (stores : Stores) : Descriptor → Option UInt64
  | .memory contents _ => some contents.length.toUInt64
  | .file handle _ => (nodeSize stores handle).toOption.map Nat.toUInt64
  | _ => none

/-- The offset that `posix_seek` computes. -/
def seekTarget (base : Option Int64) (offset : Int64) : Descriptor → Option UInt64
  | .memory _ _ => seekMemory base offset
  | .file _ _ => seekFile base offset
  | _ => none

def seekSigned (base : Option ℤ) (offset : ℤ) : Descriptor → Except Fault (Option ℤ)
  | .memory _ _ => seekMemorySigned base offset
  | .file _ _ => seekFileSigned base offset
  | _ => .ok none

/-- The condition on what is added to the base: for a synthetic file the base and the sum
are on the same side of `INT64_MAX`; for a file the offset is not `INT64_MIN`, and a
base above `INT64_MAX` is left neither forwards nor for a sum that is in range. -/
def SeekSafe (base : ℕ) (offset : ℤ) : Descriptor → Prop
  | .file _ _ => offset ≠ -2 ^ 63 ∧ (base < 2 ^ 63 ∨ offset < 0 ∧ 2 ^ 63 ≤ base + offset)
  | _ => base < 2 ^ 63 ↔ base + offset < 2 ^ 63

end Descriptor

section Seek

variable {Handle : Type}

theorem posixSeek_eq {state : ViewState Handle} {view : PosixView}
    (hview : state.environment.posixView = some view) {fd : Int32} {descriptor : Descriptor}
    (hused : usedDescriptor view fd = .ok descriptor) {size : UInt64}
    (hsize : descriptor.size state.stores = some size) (offset : Int64) (whence : Whence) :
    posixSeek fd offset whence state
      = match descriptor.seekTarget (seekBase descriptor.position size whence) offset with
        | some moved => (.ok moved,
            updateView (setDescriptor fd.toNatClampNeg (descriptor.movedTo moved)) state)
        | none => (.error (.errno .inval), state) := by
  have hcurrent : currentView state = (.ok view, state) := by
    simp only [currentView, query, hview, Option.elim]
  simp only [posixSeek, bind_eq, hcurrent, Attempts.ofExcept, hused]
  cases descriptor with
  | unused | input | output => cases hsize
  | memory contents position =>
    obtain rfl := Option.some.inj hsize
    simp only [Descriptor.seekTarget, Descriptor.position, bind_eq, ofOption]
    cases seekMemory (seekBase position contents.length.toUInt64 whence) offset with
    | none => rfl
    | some moved => rfl
  | file handle position =>
    obtain ⟨count, hcount, rfl⟩ := Option.map_eq_some_iff.mp hsize
    have hnode : nodeSize state.stores handle = .ok count := by
      cases hanswer : nodeSize state.stores handle with
      | error failure => simp [hanswer, Except.toOption] at hcount
      | ok answer => simpa [hanswer, Except.toOption] using hcount
    simp only [Descriptor.seekTarget, Descriptor.position, bind_eq, mapFailure, query, hnode,
      Except.mapError, ofOption]
    cases seekFile (seekBase position count.toUInt64 whence) offset <;> rfl

/-- No signed operation overflows; the exact sum is stored and returned if it is in range,
and otherwise the call reports `EINVAL` and changes nothing. -/
def SeeksExactly (state : ViewState Handle) (fd : Int32) (descriptor : Descriptor)
    (size : UInt64) (offset : Int64) (whence : Whence) : Prop :=
  (∃ target, descriptor.seekSigned
      ((seekBase descriptor.position size whence).map Int64.toInt) offset.toInt = .ok target)
    ∧ posixSeek fd offset whence state
      = match exactTarget (exactBase descriptor.position size whence) offset.toInt with
        | some target => (.ok target.toUInt64,
            updateView (setDescriptor fd.toNatClampNeg (descriptor.movedTo target.toUInt64)) state)
        | none => (.error (.errno .inval), state)

/-- The arithmetic alone: the checked guard and the exact target. -/
theorem seekTarget_exact_iff {descriptor : Descriptor} {stores : Stores} {size : UInt64}
    (hsize : descriptor.size stores = some size) (base : UInt64) (offset : Int64) :
    ((∃ target, descriptor.seekSigned (some base.toInt64.toInt) offset.toInt = .ok target)
        ∧ descriptor.seekTarget (some base.toInt64) offset
          = (exactTarget (some base.toNat) offset.toInt).map Nat.toUInt64)
      ↔ descriptor.SeekSafe base.toNat offset.toInt := by
  cases descriptor with
  | unused | input | output => cases hsize
  | memory contents position =>
    simp only [Descriptor.seekSigned, Descriptor.seekTarget, Descriptor.SeekSafe, seekMemory_eq]
    by_cases hbase : base.toNat < 2 ^ 63
    · rw [if_pos hbase, seekMemorySigned_isOk base offset hbase, iff_true_left hbase,
        and_iff_left rfl]
    have hbeyond := not_lt.mp hbase
    have hleast := offset.le_toInt
    rw [if_neg hbase, seekMemorySigned_beyond base offset hbeyond, iff_false_left hbase,
      and_iff_right ⟨none, rfl⟩]
    simp only [exactTarget, Option.bind_some]
    by_cases hsum : base.toNat + offset.toInt < 2 ^ 63
    · rw [if_pos ⟨by omega, hsum⟩]
      exact ⟨fun hnone => (by cases hnone), fun hnot => absurd hsum hnot⟩
    · rw [if_neg (fun hrange => hsum hrange.2)]
      exact ⟨fun _ => hsum, fun _ => rfl⟩
  | file handle position =>
    simp only [Descriptor.seekSigned, Descriptor.seekTarget, Descriptor.SeekSafe,
      seekFileSigned_isOk]
    refine and_congr_right (fun hoffset => ?_)
    by_cases hbase : base.toNat < 2 ^ 63
    · exact ⟨fun _ => .inl hbase, fun _ => seekFile_eq base offset hbase hoffset⟩
    have hbeyond := not_lt.mp hbase
    have hleast := offset.le_toInt
    have hmoves := seekFile_beyond base offset hbeyond hoffset
    simp only [exactTarget, Option.bind_some]
    by_cases hsum : base.toNat + offset.toInt < 2 ^ 63
    · rw [if_pos ⟨by omega, hsum⟩]
      constructor
      · intro hfound
        rw [hfound] at hmoves
        have hforward := hmoves.mp rfl
        omega
      · omega
    · rw [if_neg (fun hrange => hsum hrange.2), Option.map_none,
        ← Option.not_isSome_iff_eq_none, hmoves]
      omega

/-- Seeking is exact and free of overflow exactly where the offset is safe for the base. -/
theorem seeks_exactly_iff (state : ViewState Handle) (view : PosixView)
    (hview : state.environment.posixView = some view) (fd : Int32) (descriptor : Descriptor)
    (hused : usedDescriptor view fd = .ok descriptor) (size : UInt64)
    (hsize : descriptor.size state.stores = some size) (offset : Int64) (whence : Whence) :
    SeeksExactly state fd descriptor size offset whence
      ↔ ∀ base, exactBase descriptor.position size whence = some base →
        descriptor.SeekSafe base offset.toInt := by
  have hresult : posixSeek fd offset whence state
      = (match exactTarget (exactBase descriptor.position size whence) offset.toInt with
        | some target => (.ok target.toUInt64,
            updateView (setDescriptor fd.toNatClampNeg (descriptor.movedTo target.toUInt64)) state)
        | none => (.error (.errno .inval), state))
      ↔ descriptor.seekTarget (seekBase descriptor.position size whence) offset
        = (exactTarget (exactBase descriptor.position size whence) offset.toInt).map
          Nat.toUInt64 := by
    rw [posixSeek_eq hview hused hsize]
    cases descriptor.seekTarget (seekBase descriptor.position size whence) offset with
    | none =>
      cases exactTarget (exactBase descriptor.position size whence) offset.toInt with
      | none => simp
      | some target => simp
    | some moved =>
      cases exactTarget (exactBase descriptor.position size whence) offset.toInt with
      | none => simp
      | some target =>
        constructor
        · intro hequal
          rw [Option.map_some, Except.ok.inj (Prod.mk.inj hequal).1]
        · intro hequal
          obtain rfl := Option.some.inj hequal
          rfl
  rw [SeeksExactly, hresult, seekBase_eq, exactBase_eq]
  cases baseWord descriptor.position size whence with
  | none =>
    refine ⟨fun _ base hbase => (by cases hbase), fun _ => ?_⟩
    cases descriptor with
    | unused | input | output => cases hsize
    | memory contents position => exact ⟨⟨none, rfl⟩, rfl⟩
    | file handle position => exact ⟨⟨none, rfl⟩, rfl⟩
  | some base =>
    simp only [Option.map_some, Option.some.injEq, forall_eq']
    exact seekTarget_exact_iff hsize base offset

end Seek

/-! ## The extreme offsets -/

/-- A view over the administrator's store with one descriptor open beside the standard
streams; `/notice` is node 1 of the store. -/
def stateWith (descriptor : Descriptor) : ViewState ℕ where
  environment :=
    { bindings := []
      ownedSession := none
      nativeCapabilities := false
      posixView := some (setDescriptor 3 descriptor (dominit0PosixViewCreate ⟨0, 0⟩ (.ok [slash])))
      posixNamespaceRoot := none
      posixCwdSyntheticEtc := false
      sysvEnvironment := []
      ownedCwd := .node ⟨0, 0⟩
      credentialFiles := 0
      credentials := administrator
      terminalIndex := 0 }
  stores := [{ noticeStore with
    nodes := ⟨.backing noticeFile, false, 1⟩ :: noticeStore.nodes }]
  opened := []

theorem seeks_exactly_notice :
    SeeksExactly (stateWith (.file ⟨0, 1⟩ 0)) 3 (.file ⟨0, 1⟩ 0) 1 (-1) .fromEnd := by
  refine (seeks_exactly_iff (stateWith (.file ⟨0, 1⟩ 0)) _ rfl 3 (.file ⟨0, 1⟩ 0) rfl 1 rfl (-1)
    .fromEnd).mpr ?_
  intro base hbase
  obtain rfl := Option.some.inj hbase
  exact ⟨by decide, .inl (by decide)⟩

/-- In a synthetic file the sum overflows; in a file the negation does, and the call then
reports success and leaves an offset that is negative as a signed word. -/
theorem seek_overflows :
    ¬SeeksExactly (stateWith (.memory [7] 1)) 3 (.memory [7] 1) 1 Int64.maxValue .current
      ∧ ¬SeeksExactly (stateWith (.file ⟨0, 1⟩ 0)) 3 (.file ⟨0, 1⟩ 0) 1 Int64.minValue .set
      ∧ (posixSeek 3 Int64.minValue .set (stateWith (.file ⟨0, 1⟩ 0))).1 = .ok (2 ^ 63) := by
  refine ⟨?_, ?_, by decide +kernel⟩
  · rintro ⟨⟨target, htarget⟩, -⟩
    have hwrapped : (Descriptor.memory [7] 1).seekSigned (some 1) (2 ^ 63 - 1)
        = .error .wrapped := by decide
    exact absurd (hwrapped.symm.trans htarget) (by simp)
  · rintro ⟨⟨target, htarget⟩, -⟩
    have hwrapped : (Descriptor.file ⟨0, 1⟩ 0).seekSigned (some 0) (-2 ^ 63)
        = .error .wrapped := by decide
    exact absurd (hwrapped.symm.trans htarget) (by simp)

end FacetOS.Posix
