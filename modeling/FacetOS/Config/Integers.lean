import FacetOS.Config.Progress
import FacetOS.Core.Checked

/-!
# Integers

`parse_integer` collects digits in an unsigned word and compares with a limit that
depends on the sign before every step.  It accepts exactly the signed 64-bit numbers
without leading zeros, and none of its operations leaves its range.
-/

namespace FacetOS.Config

open Scanner Checked

/-! ## What an integer stands for -/

def digitValue (c : UInt8) : ℕ := (c - byte '0').toNat

/-- The number that digits stand for, behind a number read so far. -/
def digitsValue (digits : List UInt8) (magnitude : ℕ) : ℕ :=
  digits.foldl (fun magnitude c => magnitude * 10 + digitValue c) magnitude

variable (text : List UInt8)

def hasSign : Bool :=
  text.head? = some (byte '+') ∨ text.head? = some (byte '-')

def isNegative : Bool := text.head? = some (byte '-')

/-- The maximal run of digits behind an optional sign. -/
def digitsOf : List UInt8 :=
  (if hasSign text then text.tail else text).takeWhile isDigit

def integerValue : ℤ :=
  if isNegative text then -(digitsValue (digitsOf text) 0 : ℤ) else digitsValue (digitsOf text) 0

/-- The text begins with an integer of the configuration language. -/
structure IntegerText (text : List UInt8) : Prop where
  nonempty : digitsOf text ≠ []
  canonical : (digitsOf text).head? = some (byte '0') → (digitsOf text).length = 1
  least : -2 ^ 63 ≤ integerValue text
  greatest : integerValue text ≤ 2 ^ 63 - 1

/-- The cursor behind an optional sign. -/
def Cursor.behindSign (cursor : Cursor) : Cursor :=
  if hasSign cursor.rest then cursor.step else cursor

/-! ## The operations on words -/

/-- The largest magnitude for a sign. -/
def magnitudeLimit (negative : Bool) : ℕ := if negative then 2 ^ 63 else 2 ^ 63 - 1

/-- One round of the digit loop on unsigned words; there is no result if the number leaves
its range. -/
def addDigit (limit magnitude digit : ℕ) : Except Fault (Option ℕ) :=
  if limit < digit then .error .wrapped
  else if (limit - digit) / 10 < magnitude then .ok none
  else do
    let scaled ← mul (2 ^ 64) magnitude 10
    let sum ← add (2 ^ 64) scaled digit
    .ok (some sum)

def addDigits (limit : ℕ) : List UInt8 → ℕ → Except Fault (Option ℕ)
  | [], magnitude => .ok (some magnitude)
  | c :: digits, magnitude => do
      let some magnitude ← addDigit limit magnitude (digitValue c) | .ok none
      addDigits limit digits magnitude

/-- The stored value. -/
def signedValue (negative : Bool) (magnitude : ℕ) : Except Fault ℤ :=
  if negative ∧ magnitude = 2 ^ 63 then .ok (-2 ^ 63)
  else do
    let value ← signed64 magnitude
    if negative then signed64 (-value) else .ok value

/-- `parse_integer` with a fault for every operation that overflows. -/
def integerWords : Except Fault (Option ℤ) := do
  let some magnitude ← addDigits (magnitudeLimit (isNegative text)) (digitsOf text) 0
    | .ok none
  if digitsOf text = [] then .ok none
  else if 1 < (digitsOf text).length ∧ (digitsOf text).head? = some (byte '0') then .ok none
  else (signedValue (isNegative text) magnitude).map some

/-! ## Digits -/

theorem nine_le_limit (negative : Bool) : 9 ≤ magnitudeLimit negative := by
  cases negative <;> decide

theorem limit_le (negative : Bool) : magnitudeLimit negative ≤ 2 ^ 63 := by
  cases negative <;> decide

variable {c : UInt8} {digits : List UInt8} {limit magnitude : ℕ} {cursor : Cursor}

theorem digitValue_le (hdigit : isDigit c) : digitValue c ≤ 9 := by
  have hrange : byte '0' ≤ c ∧ c ≤ byte '9' := by simpa [isDigit] using hdigit
  have hgreatest : c.toNat ≤ 57 := UInt8.le_iff_toNat_le.mp hrange.2
  rw [digitValue, UInt8.toNat_sub_of_le _ _ hrange.1]
  change c.toNat - 48 ≤ 9
  omega

theorem le_digitsValue (digits : List UInt8) (magnitude : ℕ) :
    magnitude ≤ digitsValue digits magnitude := by
  induction digits generalizing magnitude with
  | nil => exact le_rfl
  | cons c digits ih => exact le_trans (by omega) (ih (magnitude * 10 + digitValue c))

/-- The test before a step is exact. -/
theorem limit_test_iff (hlimit : 9 ≤ limit) (hdigit : isDigit c) :
    (limit - digitValue c) / 10 < magnitude ↔ limit < magnitude * 10 + digitValue c := by
  have hvalue := digitValue_le hdigit
  omega

theorem addDigits_eq (hleast : 9 ≤ limit) (hgreatest : limit ≤ 2 ^ 63)
    (hdigits : ∀ c ∈ digits, isDigit c) (hmagnitude : magnitude ≤ limit) :
    addDigits limit digits magnitude = .ok (if digitsValue digits magnitude ≤ limit then
      some (digitsValue digits magnitude) else none) := by
  induction digits generalizing magnitude with
  | nil => exact congrArg Except.ok (if_pos hmagnitude).symm
  | cons c digits ih =>
    obtain ⟨hdigit, hrest⟩ := List.forall_mem_cons.mp hdigits
    have hvalue := digitValue_le hdigit
    have hgrows := le_digitsValue digits (magnitude * 10 + digitValue c)
    rw [addDigits, addDigit, if_neg (by omega)]
    by_cases htest : (limit - digitValue c) / 10 < magnitude
    · have hbeyond := (limit_test_iff hleast hdigit).mp htest
      rw [if_pos htest, ok_bind, digitsValue, List.foldl_cons, ← digitsValue, if_neg (by omega)]
    · have hwithin := (limit_test_iff hleast hdigit).not.mp htest
      rw [if_neg htest, mul_eq_ok (by omega), ok_bind, add_eq_ok (by omega), ok_bind, ok_bind]
      exact ih hrest (by omega)

/-! ## The parser -/

/-- Behind a guard the run goes on, unless the guard refuses. -/
theorem refuse_bind_eq_ok {α : Type} {condition : Prop} [Decidable condition]
    {category : FacetConfigDiagnosticCategory} {context message : String}
    {next : Unit → Lexer α} {result : α × Cursor} :
    (refuse condition (fail category context message) >>= next) cursor = .ok result
      ↔ ¬condition ∧ next () cursor = .ok result := by
  by_cases hcondition : condition
  · rw [refuse, if_pos hcondition]
    simp only [hcondition, not_true_eq_false, false_and, iff_false]
    exact fun hrun => nomatch hrun
  · rw [refuse, if_neg hcondition]
    exact ⟨fun hrun => ⟨hcondition, hrun⟩, And.right⟩

/-- One round of the digit loop. -/
theorem digitLoop_succ (limit fuel magnitude : ℕ) (cursor : Cursor) :
    digitLoop limit (fuel + 1) magnitude cursor
      = match cursor.rest.head?.filter isDigit with
        | none => .ok (magnitude, cursor)
        | some c => (refuse ((limit - digitValue c) / 10 < magnitude)
            (fail .syntaxError "integer" "signed integer overflow") >>= fun _ =>
              digitLoop limit fuel (magnitude * 10 + digitValue c)) cursor.step := by
  change (match cursor.rest.head?.filter isDigit with
    | none => pure magnitude
    | some c => take >>= fun _ => _ : Lexer ℕ) cursor = _
  cases cursor.rest.head?.filter isDigit <;> rfl

/-- The digit loop takes the whole run of digits, and succeeds unless the number passes the
limit. -/
theorem digitLoop_eq_ok (hlimit : 9 ≤ limit) {fuel : ℕ} (hfuel : cursor.rest.length ≤ fuel)
    (hmagnitude : magnitude ≤ limit) {value : ℕ} {after : Cursor} :
    digitLoop limit fuel magnitude cursor = .ok (value, after)
      ↔ digitsValue (cursor.rest.takeWhile isDigit) magnitude ≤ limit
        ∧ value = digitsValue (cursor.rest.takeWhile isDigit) magnitude
        ∧ after = Cursor.step^[(cursor.rest.takeWhile isDigit).length] cursor := by
  have hstopped {magnitude : ℕ} (hmagnitude : magnitude ≤ limit) (cursor : Cursor) :
      (.ok (magnitude, cursor) : Except FacetConfigDiagnostic _) = .ok (value, after)
        ↔ magnitude ≤ limit ∧ value = magnitude ∧ after = cursor := by
    rw [Except.ok.injEq, Prod.mk.injEq, eq_comm, @eq_comm _ cursor]
    exact (and_iff_right hmagnitude).symm
  induction fuel generalizing magnitude cursor with
  | zero =>
    rw [Nat.le_zero, List.length_eq_zero_iff] at hfuel
    rw [hfuel]
    exact hstopped hmagnitude cursor
  | succ fuel ih =>
    rw [digitLoop_succ]
    cases hrest : cursor.rest with
    | nil => exact hstopped hmagnitude cursor
    | cons c rest =>
      rw [List.head?_cons, Option.filter_some]
      by_cases hdigit : isDigit c
      · have hgrows := le_digitsValue (rest.takeWhile isDigit) (magnitude * 10 + digitValue c)
        have hbehind : cursor.step.rest = rest := by rw [rest_step, hrest, List.tail_cons]
        have hlength : cursor.step.rest.length ≤ fuel := by
          rw [hrest, List.length_cons] at hfuel
          rw [hbehind]
          omega
        rw [if_pos hdigit, List.takeWhile_cons_of_pos hdigit, List.length_cons,
          Function.iterate_succ_apply, refuse_bind_eq_ok, limit_test_iff hlimit hdigit, not_lt,
          digitsValue, List.foldl_cons, ← digitsValue]
        rw [and_congr_right fun hwithin => ih hlength hwithin, hbehind]
        exact ⟨And.right, fun hrun => ⟨hgrows.trans hrun.1, hrun⟩⟩
      · rw [if_neg hdigit, List.takeWhile_cons_of_neg hdigit]
        exact hstopped hmagnitude cursor

theorem parseSign_eq (cursor : Cursor) :
    parseSign cursor = .ok (isNegative cursor.rest, cursor.behindSign) := by
  change (if cursor.rest.head? = some (byte '+') ∨ cursor.rest.head? = some (byte '-') then
    take >>= fun sign => pure (sign == some (byte '-')) else pure false : Lexer Bool) cursor = _
  unfold Cursor.behindSign isNegative hasSign
  simp only [decide_eq_true_eq]
  by_cases hsign : cursor.rest.head? = some (byte '+') ∨ cursor.rest.head? = some (byte '-')
  · rw [if_pos hsign, if_pos hsign, ← beq_eq_decide]
    rfl
  · rw [if_neg hsign, if_neg hsign, decide_eq_false (not_or.mp hsign).2]
    rfl

theorem digitsOf_eq (cursor : Cursor) :
    digitsOf cursor.rest = cursor.behindSign.rest.takeWhile isDigit := by
  unfold digitsOf Cursor.behindSign
  split_ifs
  · rw [rest_step]
  · rfl

theorem integerValue_range_iff (text : List UInt8) :
    -2 ^ 63 ≤ integerValue text ∧ integerValue text ≤ 2 ^ 63 - 1
      ↔ digitsValue (digitsOf text) 0 ≤ magnitudeLimit (isNegative text) := by
  unfold integerValue magnitudeLimit
  split_ifs <;> omega

/-- The checks behind the digits, which began at `start`. -/
def finishInteger (negative : Bool) (start : Cursor) (magnitude : ℕ) : Lexer ℤ := do
  let after ← get
  refuse (after.rest.length = start.rest.length) (fail .syntaxError "value" "expected a value")
  refuse (1 < start.rest.length - after.rest.length ∧ start.rest.head? = some (byte '0'))
    (fail .syntaxError "integer" "leading zero is not permitted")
  return if negative then -(magnitude : ℤ) else magnitude

theorem parseInteger_eq (cursor : Cursor) : parseInteger cursor
    = (digitLoop (magnitudeLimit (isNegative cursor.rest)) cursor.behindSign.rest.length 0
      >>= finishInteger (isNegative cursor.rest) cursor.behindSign) cursor.behindSign := by
  change (parseSign cursor >>= fun _ => _) = _
  rw [parseSign_eq]
  rfl

theorem finishInteger_eq_ok {negative : Bool} {start after : Cursor} {value : ℤ} :
    finishInteger negative start magnitude cursor = .ok (value, after)
      ↔ cursor.rest.length ≠ start.rest.length
        ∧ ¬(1 < start.rest.length - cursor.rest.length ∧ start.rest.head? = some (byte '0'))
        ∧ value = (if negative then -(magnitude : ℤ) else magnitude) ∧ after = cursor := by
  change (refuse _ _ >>= fun _ => refuse _ _ >>= fun _ => pure _) cursor = _ ↔ _
  rw [refuse_bind_eq_ok, refuse_bind_eq_ok, @eq_comm _ value, @eq_comm _ after, ← Prod.mk.injEq]
  exact and_congr_right' (and_congr_right' (Except.ok.injEq _ _).to_iff)

/-- What `parse_integer` accepts, what it stores, and how far it reads. -/
theorem parseInteger_eq_ok {value : ℤ} {after : Cursor} :
    parseInteger cursor = .ok (value, after)
      ↔ IntegerText cursor.rest ∧ value = integerValue cursor.rest
        ∧ after = Cursor.step^[(digitsOf cursor.rest).length] cursor.behindSign := by
  have hlimit := nine_le_limit (isNegative cursor.rest)
  have hrest : (Cursor.step^[(digitsOf cursor.rest).length] cursor.behindSign).rest.length
      = cursor.behindSign.rest.length - (digitsOf cursor.rest).length := size_iterate_step _ _
  have hprefix : (digitsOf cursor.rest).length ≤ cursor.behindSign.rest.length := by
    rw [digitsOf_eq]
    exact (List.takeWhile_prefix _).length_le
  have hhead : (digitsOf cursor.rest).head? = some (byte '0')
      ↔ cursor.behindSign.rest.head? = some (byte '0') := by
    rw [digitsOf_eq, List.head?_takeWhile, Option.filter_eq_some_iff]
    exact and_iff_left_of_imp fun _ => by decide
  rw [parseInteger_eq, bind_eq_ok]
  simp only [digitLoop_eq_ok hlimit le_rfl (Nat.zero_le _), ← digitsOf_eq, finishInteger_eq_ok]
  constructor
  · rintro ⟨_, _, ⟨hwithin, rfl, rfl⟩, hsome, hzero, rfl, rfl⟩
    obtain ⟨hleast, hgreatest⟩ := (integerValue_range_iff _).mpr hwithin
    rw [hrest] at hsome hzero
    have hnonempty : 0 < (digitsOf cursor.rest).length := by omega
    refine ⟨⟨List.length_pos_iff.mp hnonempty, fun hlead => ?_, hleast, hgreatest⟩, rfl, rfl⟩
    have hshort := not_and'.mp hzero (hhead.mp hlead)
    omega
  · rintro ⟨htext, rfl, rfl⟩
    have hnonempty := List.length_pos_iff.mpr htext.nonempty
    refine ⟨_, _, ⟨(integerValue_range_iff _).mp ⟨htext.least, htext.greatest⟩, rfl, rfl⟩,
      by omega, ?_, rfl, rfl⟩
    rintro ⟨hlong, hlead⟩
    have hone := htext.canonical (hhead.mpr hlead)
    omega

theorem signedValue_eq {negative : Bool} (hlimit : magnitude ≤ magnitudeLimit negative) :
    signedValue negative magnitude = .ok (if negative then -(magnitude : ℤ) else magnitude) := by
  unfold magnitudeLimit at hlimit
  unfold signedValue
  cases negative with
  | false =>
    rw [if_neg (by simp), signed64_eq_ok (by omega) (by simp at hlimit; omega), ok_bind]
    rfl
  | true =>
    by_cases hleast : magnitude = 2 ^ 63
    · rw [if_pos ⟨rfl, hleast⟩, hleast]
      rfl
    · have hless : magnitude < 2 ^ 63 := lt_of_le_of_ne hlimit hleast
      rw [if_neg fun hboth => hleast hboth.2, signed64_eq_ok (by omega) (by omega), ok_bind,
        if_pos rfl, signed64_eq_ok (by omega) (by omega)]
      rfl

/-- Every input is parsed without an overflow.  It is accepted exactly if an optional sign is
followed by a run of digits without leading zeros that stands for a signed 64-bit number,
and that number is stored. -/
theorem parseInteger_exact (cursor : Cursor) :
    integerWords cursor.rest = .ok ((parseInteger cursor).toOption.map Prod.fst)
      ∧ ∀ value after, parseInteger cursor = .ok (value, after)
        ↔ IntegerText cursor.rest ∧ value = integerValue cursor.rest
          ∧ after = Cursor.step^[(digitsOf cursor.rest).length] cursor.behindSign := by
  refine ⟨?_, fun _ _ => parseInteger_eq_ok⟩
  have hdigits : ∀ c ∈ digitsOf cursor.rest, isDigit c := fun _ => List.mem_takeWhile_imp
  rw [integerWords, addDigits_eq (nine_le_limit _) (limit_le _) hdigits (Nat.zero_le _), ok_bind]
  cases hrun : parseInteger cursor with
  | ok result =>
    obtain ⟨htext, hvalue, -⟩ := parseInteger_eq_ok.mp hrun
    have hwithin := (integerValue_range_iff _).mp ⟨htext.least, htext.greatest⟩
    rw [if_pos hwithin]
    dsimp only
    rw [if_neg htext.nonempty, if_neg fun hlead => hlead.1.ne' (htext.canonical hlead.2),
      signedValue_eq hwithin]
    exact congrArg (Except.ok ∘ some) hvalue.symm
  | error failure =>
    have hrefused : ¬IntegerText cursor.rest := fun htext => by
      cases hrun.symm.trans (parseInteger_eq_ok.mpr ⟨htext, rfl, rfl⟩)
    -- the words refuse as well, unless all three checks pass
    split_ifs with hwithin hnone hlead <;> try rfl
    obtain ⟨hleast, hgreatest⟩ := (integerValue_range_iff _).mpr hwithin
    have hnonempty := List.length_pos_iff.mpr hnone
    refine absurd ⟨hnone, fun hzero => ?_, hleast, hgreatest⟩ hrefused
    have hshort := not_and'.mp hlead hzero
    omega

end FacetOS.Config
