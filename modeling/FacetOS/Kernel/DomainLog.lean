import FacetOS.Core.Text
import FacetOS.Rpc.Common

/-!
# Log records of domains

A domain's message is put behind its domain and component into a record of 512
bytes and handed to the sinks of the domain's routes.
-/

namespace FacetOS.Kernel

open Rpc (FacetError)

def domainLogMaxRecord : ℕ := 512

/-- What has been written into the record so far; it never exceeds the buffer. -/
abbrev Record := { bytes : List UInt8 // bytes.length ≤ domainLogMaxRecord }

def appendChar (record : Record) (value : UInt8) : Option Record :=
  if hfull : record.1.length = domainLogMaxRecord then none
  else some ⟨record.1 ++ [value], by
    rw [List.length_append, List.length_singleton]
    omega⟩

def appendString (record : Record) (value : List UInt8) : Option Record :=
  if hlong : domainLogMaxRecord - record.1.length < value.length then none
  else some ⟨record.1 ++ value, by
    rw [List.length_append]
    omega⟩

/-- The digits of a number, the last one first; `room` is the size of the array. -/
def uintDigits : ℕ → ℕ → List UInt8
  | 0, _ => []
  | room + 1, value =>
    (48 + value % 10).toUInt8 :: if value / 10 = 0 then [] else uintDigits room (value / 10)

/-- The body of the loop over the digits returns, so the loop appends the first digit
and ends. -/
def appendUint (record : Record) (value : UInt64) : Option Record :=
  match (uintDigits 24 value.toNat).getLast? with
  | none => some record
  | some digit => appendChar record digit

def logRecord (domainId : UInt64) (component message : List UInt8) : Option Record := do
  let record ← appendString ⟨[], Nat.zero_le _⟩ (ascii "[domain ")
  let record ← appendUint record domainId
  let record ← appendString record (ascii "] ")
  let record ← appendString record component
  let record ← appendString record (ascii ": ")
  let record ← appendString record message
  appendChar record 10

/-- The levels from `LogLevel_None` to `LogLevel_Trace`. -/
def validLevel (level : Int32) : Bool :=
  level ∈ [0, 10, 20, 30, 40, 50, 60]

structure LogRoute where
  name : List UInt8
  level : Int32

variable {Sink : Type}

/-- A configured sink; the platform may not have it. -/
structure KlogSinkBinding (Sink : Type) where
  name : List UInt8
  sink : Option Sink

/-- The inner loop: the first binding of that name with a sink. -/
def boundSink (bindings : List (KlogSinkBinding Sink)) (name : List UInt8) : Option Sink :=
  bindings.findSome? (fun binding => if name = binding.name then binding.sink else none)

def Admits (level : Int32) (route : LogRoute) : Prop :=
  ¬(route.level < level ∨ route.level = 0)

instance (level : Int32) : DecidablePred (Admits level) :=
  fun _ => inferInstanceAs (Decidable (¬_))

variable (accepts : Sink → Bool) (bindings : List (KlogSinkBinding Sink))

/-- The loop over the routes: what is handed to the sinks in order, and the result.
`accepts` tells whether a sink returns `FACET_OK`. -/
def emitRoutes (level : Int32)
    (output : List UInt8) : List LogRoute → Except FacetError Unit → List (Sink × List UInt8) →
      Except FacetError Unit × List (Sink × List UInt8)
  | [], result, emitted => (result, emitted)
  | route :: routes, result, emitted =>
    if Admits level route then
      match boundSink bindings route.name with
      | none => emitRoutes level output routes result emitted
      | some sink => emitRoutes level output routes
          (if accepts sink then result else .error .error) (emitted ++ [(sink, output)])
    else emitRoutes level output routes result emitted

variable (routes : List LogRoute) (domainId : UInt64)

/-- `dominit0_logging_emit` once logging runs, with the routes that `getsinks` gives. -/
def dominit0LoggingEmit (level : Int32)
    (component message : List UInt8) : Except FacetError Unit × List (Sink × List UInt8) :=
  if validLevel level = false then (.error .invalidArgument, [])
  else
    match logRecord domainId component message with
    | none => (.error .bufferTooSmall, [])
    | some record => emitRoutes accepts bindings level record.1 routes (.ok ()) []

/-! ## The intended record -/

/-- The record with some text for the domain. -/
def recordOf (domain component message : List UInt8) : List UInt8 :=
  ascii "[domain " ++ domain ++ ascii "] " ++ component ++ ascii ": " ++ message ++ [10]

def recordText : List UInt8 → List UInt8 → List UInt8 :=
  recordOf (decimal domainId.toNat)

/-- The sinks of the routes that admit a level. -/
def recipients (level : Int32) : List Sink :=
  (routes.filter (Admits level)).filterMap (fun route => boundSink bindings route.name)

/-- Every recipient gets the text once, unless it is too long and nobody does. -/
def Delivers (answer : Except FacetError Unit × List (Sink × List UInt8)) (sinks : List Sink)
    (text : List UInt8) : Prop :=
  if domainLogMaxRecord < text.length then answer = (.error .bufferTooSmall, [])
  else answer.1 ≠ .error .bufferTooSmall ∧ answer.2 = sinks.map (fun sink => (sink, text))

def EmitsRecord (level : Int32) (component message : List UInt8) : Prop :=
  Delivers (dominit0LoggingEmit accepts bindings routes domainId level component message)
    (recipients bindings routes level) (recordText domainId component message)

/-! ## The record that is written -/

/-- Bytes that fit the buffer. -/
def fitted (bytes : List UInt8) : Option Record :=
  if hfits : bytes.length ≤ domainLogMaxRecord then some ⟨bytes, hfits⟩ else none

theorem appendString_eq (record : Record) (value : List UInt8) :
    appendString record value = fitted (record.1 ++ value) := by
  by_cases hlong : domainLogMaxRecord - record.1.length < value.length
  · rw [appendString, dif_pos hlong, fitted, dif_neg (by rw [List.length_append]; omega)]
  · rw [appendString, dif_neg hlong, fitted, dif_pos]

theorem appendChar_eq (record : Record) (value : UInt8) :
    appendChar record value = fitted (record.1 ++ [value]) := by
  by_cases hfull : record.1.length = domainLogMaxRecord
  · rw [appendChar, dif_pos hfull, fitted, dif_neg (by simp [hfull])]
  · rw [appendChar, dif_neg hfull, fitted, dif_pos]

/-- Writing on succeeds when everything fits. -/
theorem fitted_append (bytes more : List UInt8) :
    (fitted bytes >>= fun record => fitted (record.1 ++ more)) = fitted (bytes ++ more) := by
  by_cases hfits : bytes.length ≤ domainLogMaxRecord
  · simp [fitted, hfits]
  · have hlong : ¬(bytes ++ more).length ≤ domainLogMaxRecord := by
      rw [List.length_append]
      omega
    rw [fitted, fitted, dif_neg hfits, dif_neg hlong]
    rfl

def leadingDigit (value : UInt64) : UInt8 :=
  (uintDigits 24 value.toNat).getLastD 0

theorem appendUint_eq (record : Record) (value : UInt64) :
    appendUint record value = fitted (record.1 ++ [leadingDigit value]) := by
  rw [← appendChar_eq, appendUint, leadingDigit, List.getLastD_eq_getLast?, uintDigits,
    List.getLast?_cons]
  rfl

theorem length_recordOf (domain component message : List UInt8) :
    (recordOf domain component message).length
      = 13 + domain.length + component.length + message.length := by
  have hdomain : (ascii "[domain ").length = 8 := by decide
  have hbracket : (ascii "] ").length = 2 := by decide
  have hcolon : (ascii ": ").length = 2 := by decide
  simp only [recordOf, List.length_append, hdomain, hbracket, hcolon, List.length_singleton]
  omega

/-- The record has one digit of the domain, whatever its id. -/
theorem logRecord_eq (component message : List UInt8) : logRecord domainId component message
      = fitted (recordOf [leadingDigit domainId] component message) := by
  simp only [logRecord, appendString_eq, appendUint_eq, appendChar_eq, List.nil_append,
    fitted_append, recordOf, List.append_assoc]

theorem decimal_of_lt {domainId : UInt64} (hsmall : domainId.toNat < 10) :
    decimal domainId.toNat = [leadingDigit domainId] := by
  have hdigits : leadingDigit domainId = (48 + domainId.toNat).toUInt8 := by
    rw [leadingDigit, uintDigits, if_pos (by omega), Nat.mod_eq_of_lt hsmall]
    rfl
  rw [hdigits, decimal_eq, Nat.toDigits_of_lt_base hsmall]
  generalize domainId.toNat = value at hsmall
  interval_cases value <;> rfl

theorem two_le_length_decimal {value : ℕ} (hlarge : 10 ≤ value) : 2 ≤ (decimal value).length := by
  by_contra hshort
  have hone : (Nat.toDigits 10 value).length ≤ 1 := by
    rw [decimal_eq, List.length_map] at hshort
    omega
  rw [Nat.length_toDigits_le_iff (by decide) (by decide)] at hone
  omega

/-! ## Delivery -/

theorem emitRoutes_eq (level : Int32) (output : List UInt8) (routes : List LogRoute)
    {result : Except FacetError Unit} (hresult : result ≠ .error .bufferTooSmall)
    (emitted : List (Sink × List UInt8)) :
    let answer := emitRoutes accepts bindings level output routes result emitted
    answer.1 ≠ .error .bufferTooSmall ∧ answer.2
      = emitted ++ (recipients bindings routes level).map (fun sink => (sink, output)) := by
  induction routes generalizing result emitted with
  | nil => exact ⟨hresult, (List.append_nil _).symm⟩
  | cons route routes ih =>
    by_cases hadmits : Admits level route
    · cases hsink : boundSink bindings route.name with
      | none => simpa [emitRoutes, recipients, hadmits, hsink] using ih hresult emitted
      | some sink =>
        have hnext : (if accepts sink then result else .error .error)
            ≠ .error .bufferTooSmall := by
          split
          · exact hresult
          · simp
        simpa [emitRoutes, recipients, hadmits, hsink] using
          ih hnext (emitted ++ [(sink, output)])
    · simpa [emitRoutes, recipients, hadmits] using ih hresult emitted

/-- What is done with the record of one digit. -/
theorem delivers_leadingDigit {level : Int32} (component message : List UInt8)
    (hlevel : validLevel level = true) :
    Delivers (dominit0LoggingEmit accepts bindings routes domainId level component message)
      (recipients bindings routes level)
      (recordOf [leadingDigit domainId] component message) := by
  rw [dominit0LoggingEmit, hlevel, if_neg (by decide), logRecord_eq, Delivers]
  split
  · rename_i hlong
    rw [fitted, dif_neg (not_le.mpr hlong)]
  · rename_i hfits
    rw [fitted, dif_pos (not_lt.mp hfits)]
    exact emitRoutes_eq accepts bindings level _ routes (by simp) []

/-- A message reaches the sinks as intended exactly for domains below ten, for records
that are too long with any number, and for those that fit and have no recipient. -/
theorem emits_record_iff {accepts : Sink → Bool} {bindings : List (KlogSinkBinding Sink)}
    {routes : List LogRoute} {domainId : UInt64} {level : Int32} {component message : List UInt8}
    (hlevel : validLevel level = true) :
    EmitsRecord accepts bindings routes domainId level component message ↔
      domainId.toNat < 10 ∨ 498 < component.length + message.length ∨
        13 + (decimal domainId.toNat).length + component.length + message.length ≤ 512
          ∧ recipients bindings routes level = [] := by
  have hanswer := delivers_leadingDigit accepts bindings routes domainId component message hlevel
  by_cases hsmall : domainId.toNat < 10
  · refine iff_of_true ?_ (.inl hsmall)
    rwa [EmitsRecord, recordText, decimal_of_lt hsmall]
  have hdigits := two_le_length_decimal (not_lt.mp hsmall)
  have hwritten := length_recordOf [leadingDigit domainId] component message
  have hwanted := length_recordOf (decimal domainId.toNat) component message
  rw [List.length_singleton] at hwritten
  have hmax : domainLogMaxRecord = 512 := rfl
  rw [Delivers] at hanswer
  rw [or_iff_right hsmall, EmitsRecord, Delivers, recordText]
  by_cases hlong : 498 < component.length + message.length
  · rw [if_pos (by omega)] at hanswer
    rw [if_pos (by omega)]
    exact iff_of_true hanswer (.inl hlong)
  · rw [if_neg (by omega)] at hanswer
    rw [or_iff_right hlong]
    split
    · refine iff_of_false (fun hnobody => hanswer.1 (congrArg Prod.fst hnobody)) ?_
      omega
    have hdiffer : recordOf [leadingDigit domainId] component message
        ≠ recordOf (decimal domainId.toNat) component message := by
      intro hsame
      have hlengths := congrArg List.length hsame
      omega
    rw [and_iff_right hanswer.1, hanswer.2, and_iff_right (by omega)]
    cases recipients bindings routes level with
    | nil => simp
    | cons sink sinks => simp [hdiffer]

theorem emits_record_one : EmitsRecord (fun _ => true) [⟨[1], some ()⟩] [⟨[1], 40⟩] 1 40 [2] [3] :=
  (emits_record_iff (by decide)).mpr (by decide)

/-- Domain 12 logs as domain 1. -/
theorem domain_twelve_cut :
    validLevel 40 = true ∧
      ¬EmitsRecord (fun _ => true) [⟨[1], some ()⟩] [⟨[1], 40⟩] 12 40 [2] [3] := by
  refine ⟨by decide, fun hemits => ?_⟩
  rw [EmitsRecord, Delivers, if_neg (by decide)] at hemits
  exact absurd hemits.2 (by decide)

end FacetOS.Kernel
