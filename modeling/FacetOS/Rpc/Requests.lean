import FacetOS.Rpc.Bounds

/-!
# The memory that the decoder requests

A constant for each type description bounds what the decoder requests, because
counts and lengths have 32 bits.  That is not to say that the payload accounts for
the memory: a string is measured against the bytes behind its length before its
memory is requested, an array is not.
-/

namespace FacetOS.Rpc

open LittleEndian ByteMemory

/-- The number of bytes that all events together request. -/
def totalRequested (events : List DecodeEvent) : ℕ :=
  (events.map DecodeEvent.requested).sum

theorem totalRequested_append (events later : List DecodeEvent) :
    totalRequested (events ++ later) = totalRequested events + totalRequested later := by
  simp [totalRequested]

/-! ## A constant for each description -/

/-- The run requests at most `factor` bytes for each byte it has read, and as much
again. -/
def Charges (factor start : ℕ) (trace : Trace) : Prop :=
  start ≤ trace.stop ∧
    totalRequested trace.events ≤ factor * (trace.stop - start + 1)

variable {element : ℕ → Trace → Prop} {language : Word → Prop} {factor count : ℕ}

section Factor

variable {payload : List UInt8} {start : ℕ} {trace : Trace}

theorem charges_idle (hevents : totalRequested trace.events = 0) (hstop : start ≤ trace.stop) :
    Charges factor start trace :=
  ⟨hstop, hevents ▸ Nat.zero_le _⟩

theorem charges_read {size : ℕ} (htrace : ReadRun payload size start trace) :
    Charges 0 start trace := by
  cases htrace with
  | short hshort => exact charges_idle rfl le_rfl
  | copied hle => exact charges_idle rfl (Nat.le_add_right _ _)

theorem charges_string (htrace : StringRun payload start trace) :
    Charges (2 ^ 32) start trace := by
  cases htrace with
  | short hshort => exact charges_idle rfl le_rfl
  | cut length hlength hheader hshort => exact charges_idle rfl (Nat.le_add_right _ _)
  | refused length hlength | copied length hlength =>
    refine ⟨by simp only; omega, ?_⟩
    simp only [totalRequested, DecodeEvent.requested, List.map_cons, List.map_nil,
      List.sum_cons, List.sum_nil]
    omega

theorem charges_then {first second : ℕ → Trace → Prop} {left right : ℕ}
    (hfirst : ∀ {trace}, first start trace → Charges left start trace)
    (hsecond : ∀ {middle trace}, second middle trace → Charges right middle trace)
    (htrace : ThenRun first second start trace) : Charges (left + right) start trace := by
  cases htrace with
  | failed hfailed =>
    obtain ⟨hstop, htotal⟩ := hfirst hfailed
    exact ⟨hstop, htotal.trans (Nat.mul_le_mul_right _ (Nat.le_add_right _ _))⟩
  | @next events middle trace hok hlater =>
    obtain ⟨hmiddle, hbefore⟩ := hfirst hok
    obtain ⟨hstop, hbehind⟩ := hsecond hlater
    dsimp only at hmiddle hbefore
    refine ⟨hmiddle.trans hstop, ?_⟩
    dsimp only
    rw [totalRequested_append, Nat.add_mul]
    apply Nat.add_le_add
    · exact hbefore.trans (Nat.mul_le_mul_left _ (by omega))
    · exact hbehind.trans (Nat.mul_le_mul_left _ (by omega))

theorem charges_elements (hstep : ∀ {start trace}, element start trace → Charges factor start trace)
    (htrace : ElementsRun element count start trace) :
    start ≤ trace.stop ∧
      totalRequested trace.events ≤ factor * (trace.stop - start + count) := by
  induction count generalizing start trace with
  | zero =>
    cases htrace
    exact ⟨le_rfl, Nat.zero_le _⟩
  | succ count ih =>
    cases htrace with
    | failed hfailed =>
      obtain ⟨hstop, htotal⟩ := hstep hfailed
      exact ⟨hstop, htotal.trans (Nat.mul_le_mul_left _ (by omega))⟩
    | @next events middle trace hok hlater =>
      obtain ⟨hmiddle, hbefore⟩ := hstep hok
      obtain ⟨hstop, hbehind⟩ := ih hlater
      dsimp only at hmiddle hbefore
      refine ⟨hmiddle.trans hstop, ?_⟩
      have hsplit : trace.stop - start + (count + 1) =
          middle - start + 1 + (trace.stop - middle + count) := by omega
      rw [totalRequested_append, hsplit, Nat.mul_add]
      exact Nat.add_le_add hbefore hbehind

theorem charges_array {elementSize : ℕ}
    (hstep : ∀ {start trace}, element start trace → Charges factor start trace)
    (htrace : ArrayRun payload elementSize element start trace) :
    Charges (2 ^ 32 * (elementSize + factor)) start trace := by
  cases htrace with
  | short hshort => exact charges_idle rfl le_rfl
  | unfit count hcount hheader hunfit => exact charges_idle rfl (Nat.le_add_right _ _)
  | empty hheader => exact charges_idle rfl (Nat.le_add_right _ _)
  | refused count hcount hheader hfits hnonzero =>
    refine ⟨Nat.le_add_right _ _, ?_⟩
    simp only [totalRequested, DecodeEvent.requested, List.map_cons, List.map_nil,
      List.sum_cons, List.sum_nil, Nat.zero_add, Nat.add_zero]
    calc count * elementSize ≤ 2 ^ 32 * elementSize := Nat.mul_le_mul_right _ hcount.le
      _ ≤ 2 ^ 32 * (elementSize + factor) := Nat.mul_le_mul_left _ (Nat.le_add_right _ _)
      _ ≤ 2 ^ 32 * (elementSize + factor) * (start + 4 - start + 1) :=
        Nat.le_mul_of_pos_right _ (Nat.succ_pos _)
  | @elements count hcount hheader hfits hnonzero trace hrun =>
    obtain ⟨hstop, htotal⟩ := charges_elements hstep hrun
    refine ⟨(Nat.le_add_right _ _).trans hstop, ?_⟩
    have hevents : totalRequested (.read start 4 :: .calloc count elementSize true ::
        trace.events) = count * elementSize + totalRequested trace.events := by
      simp [totalRequested, DecodeEvent.requested]
    have hlength : trace.stop - (start + 4) + count ≤ 2 ^ 32 * (trace.stop - start + 1) := by
      omega
    rw [hevents]
    calc count * elementSize + totalRequested trace.events
        ≤ 2 ^ 32 * elementSize * (trace.stop - start + 1) +
            factor * (2 ^ 32 * (trace.stop - start + 1)) := by
          apply Nat.add_le_add
          · exact (Nat.mul_le_mul_right _ hcount.le).trans
              (Nat.le_mul_of_pos_right _ (Nat.succ_pos _))
          · exact htotal.trans (Nat.mul_le_mul_left _ hlength)
      _ = 2 ^ 32 * (elementSize + factor) * (trace.stop - start + 1) := by ring

theorem charges_flat {kind : FacetType} (htrace : FlatRun payload kind start trace) :
    Charges (2 ^ 32) start trace := by
  have hread {size : ℕ} (hrun : ReadRun payload size start trace) :
      Charges (2 ^ 32) start trace := by
    obtain ⟨hstop, htotal⟩ := charges_read hrun
    exact ⟨hstop, htotal.trans (Nat.mul_le_mul_right _ (Nat.zero_le _))⟩
  cases kind with
  | string => exact charges_string htrace
  | bool | uuid | u8 | u16 | u32 | u64 | i8 | i16 | i32 | i64 => exact hread htrace
  | handle | bytes | localPtr | enum | struct | array =>
    cases htrace
    exact charges_idle rfl le_rfl

end Factor

theorem exists_factor_value :
    (∀ kind metadata, ∃ factor, ∀ {payload start trace},
      ValueRun payload kind metadata start trace → Charges factor start trace) ∧
      ∀ fields, ∃ factor, ∀ {payload start trace}, FieldsRun payload fields start trace →
        Charges factor start trace := by
  refine description_induction (fun hflat => ⟨2 ^ 32, fun htrace => ?_⟩)
    ⟨2 ^ 32 * (0 + 0), fun htrace => charges_array ?_ htrace⟩ ⟨0, ?_⟩
    (fun harray ⟨factor, hfactor⟩ => ?_)
    (fun hstruct ⟨factor, hfactor⟩ => ⟨factor, fun htrace => ?_⟩) ⟨0, ?_⟩
    (fun ⟨left, hleft⟩ ⟨right, hright⟩ => ⟨left + right, charges_then hleft hright⟩)
  · rw [valueRun_flat hflat] at htrace
    exact charges_flat htrace
  · rintro _ _ rfl
    exact charges_idle rfl le_rfl
  · rintro _ _ _ rfl
    exact charges_idle rfl le_rfl
  · simp only [ValueRun, harray]
    exact ⟨_, charges_array hfactor⟩
  · rw [ValueRun, hstruct] at htrace
    exact hfactor htrace
  · rintro _ _ _ rfl
    exact charges_idle rfl le_rfl

/-! ## What the payload accounts for -/

/-- Whenever memory for `n` characters or `n` array elements is requested, at least
`n` bytes of the payload are still to be read. -/
def Accounted (payload : List UInt8) : ℕ → List DecodeEvent → Prop
  | _, [] => True
  | _, .read offset size :: rest => Accounted payload (offset + size) rest
  | position, .malloc length _ :: rest =>
    position + length ≤ payload.length ∧ Accounted payload position rest
  | position, .calloc count _ _ :: rest =>
    position + count ≤ payload.length ∧ Accounted payload position rest

instance decidableAccounted (payload : List UInt8) :
    (events : List DecodeEvent) → (position : ℕ) → Decidable (Accounted payload position events)
  | [], _ => .isTrue trivial
  | .read offset size :: rest, _ => decidableAccounted payload rest (offset + size)
  | .malloc length _ :: rest, position =>
    have := decidableAccounted payload rest position
    inferInstanceAs (Decidable (position + length ≤ payload.length ∧ _))
  | .calloc count _ _ :: rest, position =>
    have := decidableAccounted payload rest position
    inferInstanceAs (Decidable (position + count ≤ payload.length ∧ _))

theorem accounted_append {payload : List UInt8} {events later : List DecodeEvent}
    {start middle : ℕ} (hreads : Consecutive start events middle) :
    Accounted payload start (events ++ later) ↔
      Accounted payload start events ∧ Accounted payload middle later := by
  induction events generalizing start with
  | nil =>
    cases hreads
    simp [Accounted]
  | cons event rest ih =>
    cases event with
    | read offset size =>
      obtain ⟨rfl, hrest⟩ := hreads
      exact ih hrest
    | malloc length granted => simp only [List.cons_append, Accounted, ih hreads, and_assoc]
    | calloc count size granted =>
      simp only [List.cons_append, Accounted, ih hreads, and_assoc]

section Backing

variable (payload : List UInt8)

/-- The first part is backed, and so is the second one behind every word that the
first part may be. -/
def BackedThen (language : Word → Prop) (first second : ℕ → Prop) (start : ℕ) : Prop :=
  first start ∧
    ∀ word, language word → Carries payload start word.bytes →
      second (start + word.bytes.length)

def BackedElements (language : Word → Prop) (element : ℕ → Prop) : ℕ → ℕ → Prop
  | 0 => fun _ => True
  | count + 1 => BackedThen payload language element (BackedElements language element count)

/-- The header announces no more elements than bytes follow it. -/
def BackedArray (elementSize : ℕ) (language : Word → Prop) (element : ℕ → Prop) (start : ℕ) :
    Prop :=
  ∀ count < 2 ^ 32, Carries payload start (leBytes 4 count) → Storable count elementSize →
    start + 4 + count ≤ payload.length ∧
      BackedElements payload language element count (start + 4)

mutual

/-- Each array of the payload that stands behind complete words announces no more
elements than bytes follow its header. -/
def Backed (kind : FacetType) : FacetTypeMeta → ℕ → Prop
  | .null =>
    match kind with
    | .array => BackedArray payload 0 (fun _ => False) fun _ => True
    | _ => fun _ => True
  | .mk metaKind underlying size elementType elementKind fields =>
    match codecKind kind (.mk metaKind underlying size elementType elementKind fields) with
    | .array =>
      BackedArray payload
        (codecTypeSize (elementKindOf elementType elementKind) elementType)
        (Spells Storable (elementKindOf elementType elementKind) elementType)
        (Backed (elementKindOf elementType elementKind) elementType)
    | .struct => BackedFields fields
    | _ => fun _ => True

def BackedFields : FacetStructFields → ℕ → Prop
  | .nil => fun _ => True
  | .cons typeKind type _ rest =>
    BackedThen payload (Spells Storable typeKind type) (Backed typeKind type)
      (BackedFields rest)

end

end Backing

/-- Backed bytes are accounted for, and if no request is refused, only those. -/
def Accounts (payload : List UInt8) (backed : Prop) (start : ℕ) (trace : Trace) : Prop :=
  (backed → Accounted payload start trace.events) ∧
    (trace.code ≠ .error .outOfMemory → Accounted payload start trace.events → backed)

section Accounting

variable {payload : List UInt8} {start : ℕ} {trace : Trace}

theorem accounts_of_accounted (haccounted : Accounted payload start trace.events) :
    Accounts payload True start trace :=
  ⟨fun _ => haccounted, fun _ _ => trivial⟩

theorem accounts_flat {kind : FacetType} (htrace : FlatRun payload kind start trace) :
    Accounts payload True start trace := by
  apply accounts_of_accounted
  cases kind with
  | string =>
    cases htrace with
    | short | cut => trivial
    | refused _ _ _ hle | copied _ _ _ hle => exact ⟨hle, trivial⟩
  | bool | uuid | u8 | u16 | u32 | u64 | i8 | i16 | i32 | i64 => cases htrace <;> trivial
  | handle | bytes | localPtr | enum | struct | array =>
    cases htrace
    trivial

theorem accounts_then {first second : ℕ → Trace → Prop} {backedFirst backedSecond : ℕ → Prop}
    (hfirst : ∀ {trace}, first start trace →
      Accounts payload (backedFirst start) start trace ∧ Bounded payload start trace ∧
        Follows payload Word.bytes language start trace)
    (hsecond : ∀ {middle trace}, middle ≤ payload.length → second middle trace →
      Accounts payload (backedSecond middle) middle trace)
    (hlanguage : Unambiguous Word.bytes language) (htrace : ThenRun first second start trace) :
    Accounts payload (BackedThen payload language backedFirst backedSecond start) start
      trace := by
  cases htrace with
  | failed hfailed =>
    obtain ⟨⟨hback, hforth⟩, -, hfollows⟩ := hfirst hfailed
    refine ⟨fun hbacked => hback hbacked.1, fun hmemory haccounted => ?_⟩
    refine ⟨hforth hmemory haccounted, fun word hword hcarries => ?_⟩
    rcases hfollows with rfl | hnone
    · exact absurd rfl hmemory
    · exact absurd hcarries (hnone word hword)
  | @next events middle trace hok hlater =>
    obtain ⟨⟨hback, hforth⟩, hbounded, word, hword, hcarries, hmiddle⟩ := hfirst hok
    dsimp only at hmiddle
    obtain ⟨hbackLater, hforthLater⟩ := hsecond (hmiddle ▸ hcarries.le) hlater
    dsimp only [Accounts]
    rw [accounted_append hbounded.consecutive]
    constructor
    · intro hbacked
      refine ⟨hback hbacked.1, hbackLater ?_⟩
      rw [hmiddle]
      exact hbacked.2 word hword hcarries
    · rintro hmemory ⟨hbefore, hbehind⟩
      refine ⟨hforth (fun hcode => nomatch hcode) hbefore, ?_⟩
      intro other hother hcarriesOther
      obtain rfl := Carries.unique hlanguage hother hword hcarriesOther hcarries
      rw [← hmiddle]
      exact hforthLater hmemory hbehind

variable {backed : ℕ → Prop}
  (hstep : ∀ {start trace}, start ≤ payload.length → element start trace → Accounts payload (backed
    start) start trace ∧ Bounded payload start trace ∧ Follows payload Word.bytes language start
    trace)
include hstep

theorem accounts_elements
    (hlanguage : Unambiguous Word.bytes language) (hstart : start ≤ payload.length)
    (htrace : ElementsRun element count start trace) :
    Accounts payload (BackedElements payload language backed count start) start trace := by
  induction count generalizing start trace with
  | zero =>
    cases htrace
    exact accounts_of_accounted trivial
  | succ count ih => exact accounts_then (hstep hstart) ih hlanguage htrace

omit hstep in
/-- A header determines its count. -/
theorem carries_count_unique {other : ℕ} (hcount : count < 2 ^ 32) (hother : other < 2 ^ 32)
    (hheader : Carries payload start (leBytes 4 count))
    (hcarries : Carries payload start (leBytes 4 other)) : other = count := by
  rw [← List.append_nil (leBytes 4 other)] at hcarries
  exact (hheader.count_eq hcount hother hcarries).1

theorem accounts_array {elementSize : ℕ} (hlanguage : Unambiguous Word.bytes language)
    (htrace : ArrayRun payload elementSize element start trace) :
    Accounts payload (BackedArray payload elementSize language backed start) start trace := by
  cases htrace with
  | short hshort =>
    exact ⟨fun _ => trivial, fun _ _ count hcount hheader _ =>
      absurd hheader.header_le (by omega)⟩
  | unfit count hcount hheader hunfit =>
    refine ⟨fun _ => trivial, fun _ _ other hother hcarries hfits => ?_⟩
    rw [carries_count_unique hcount hother hheader hcarries] at hfits
    exact absurd hfits hunfit
  | empty hheader =>
    refine ⟨fun _ => trivial, fun _ _ other hother hcarries hfits => ?_⟩
    rw [carries_count_unique (by decide) hother hheader hcarries]
    exact ⟨hheader.header_le, trivial⟩
  | refused count hcount hheader hfits hnonzero =>
    refine ⟨fun hbacked => ⟨(hbacked count hcount hheader hfits).1, trivial⟩, ?_⟩
    exact fun hmemory => absurd rfl hmemory
  | @elements count hcount hheader hfits hnonzero trace hrun =>
    obtain ⟨hback, hforth⟩ := accounts_elements hstep hlanguage hheader.header_le hrun
    constructor
    · intro hbacked
      obtain ⟨hle, hparts⟩ := hbacked count hcount hheader hfits
      exact ⟨hle, hback hparts⟩
    · rintro hmemory ⟨hle, hparts⟩ other hother hcarries -
      rw [carries_count_unique hcount hother hheader hcarries]
      exact ⟨hle, hforth hmemory hparts⟩

end Accounting

theorem backed_flat {payload : List UInt8} {kind : FacetType} {metadata : FacetTypeMeta}
    (hflat : Flat kind metadata) :
    Backed payload kind metadata = fun _ => True := by
  obtain ⟨harray, hstruct⟩ := hflat
  cases metadata <;> unfold Backed <;> split <;> first | rfl | contradiction

theorem accounts_value (payload : List UInt8) :
    (∀ kind metadata {start trace}, start ≤ payload.length →
      ValueRun payload kind metadata start trace →
      Accounts payload (Backed payload kind metadata start) start trace) ∧
      ∀ fields {start trace}, start ≤ payload.length → FieldsRun payload fields start trace →
        Accounts payload (BackedFields payload fields start) start trace := by
  have hbounded := (bounded_value payload).1
  have hfollows := (follows_value payload).1
  refine description_induction (fun hflat _ _ _ htrace => ?_) (fun _ htrace => ?_) ?_
    (fun harray helement _ _ _ htrace => ?_) (fun hstruct hfields _ _ hstart htrace => ?_) ?_
    (fun hfirst hrest _ _ hstart htrace => ?_)
  · rw [valueRun_flat hflat] at htrace
    rw [backed_flat hflat]
    exact accounts_flat htrace
  · refine accounts_array ?_ (fun _ _ _ _ hleft => hleft.elim) htrace
    rintro _ _ _ rfl
    exact ⟨accounts_of_accounted trivial, bounded_refused (by decide) rfl,
      .inr fun _ hword => hword.elim⟩
  · rintro _ _ _ ⟨⟩
    exact accounts_of_accounted trivial
  · rw [ValueRun, harray] at htrace
    rw [Backed, harray]
    exact accounts_array (fun hle hrun => ⟨helement hle hrun, hbounded _ _ hrun,
      hfollows _ _ hle hrun⟩) ((unambiguous_spells _).1 _ _) htrace
  · rw [ValueRun, hstruct] at htrace
    rw [Backed, hstruct]
    exact hfields hstart htrace
  · rintro _ _ _ ⟨⟩
    exact accounts_of_accounted trivial
  · exact accounts_then (fun hrun => ⟨hfirst hstart hrun, hbounded _ _ hrun,
      hfollows _ _ hstart hrun⟩) hrest ((unambiguous_spells _).1 _ _) htrace

/-- For every type description, a constant times the size of the payload bounds the
memory that decoding requests.  The payload accounts for all of it if each array
announces no more elements than bytes follow its header, and, when no request is
refused, only then. -/
theorem decode_requests_accounted_iff (kind : FacetType) (metadata : FacetTypeMeta) :
    (∃ factor, ∀ allocator payload output (state : DecodeState),
      state.offset ≤ payload.length →
      totalRequested (valueEvents allocator payload kind metadata output state) ≤
        factor * (payload.length + 1)) ∧
      ∀ allocator payload output (state : DecodeState), state.offset ≤ payload.length →
        (Backed payload kind metadata state.offset →
          Accounted payload state.offset
            (valueEvents allocator payload kind metadata output state)) ∧
        ((∀ event ∈ valueEvents allocator payload kind metadata output state,
            event.refused = false) →
          Accounted payload state.offset
            (valueEvents allocator payload kind metadata output state) →
          Backed payload kind metadata state.offset) := by
  constructor
  · obtain ⟨factor, hfactor⟩ := exists_factor_value.1 kind metadata
    refine ⟨factor, fun allocator payload output state hoffset => ?_⟩
    have hrun := (decodeValue_run allocator payload).1 kind metadata output state
    obtain ⟨hstop, htotal⟩ := hfactor hrun
    have hend := ((bounded_value payload).1 kind metadata hrun).stop_le hoffset
    exact htotal.trans (Nat.mul_le_mul_left _ (by omega))
  · intro allocator payload output state hoffset
    have hrun := (decodeValue_run allocator payload).1 kind metadata output state
    obtain ⟨hback, hforth⟩ := (accounts_value payload).1 kind metadata hoffset hrun
    refine ⟨hback, fun hgranted => hforth fun hfailed => ?_⟩
    obtain ⟨event, hevent, hrefused⟩ :=
      ((bounded_value payload).1 kind metadata hrun).refused_iff.mpr hfailed
    rw [hgranted event hevent] at hrefused
    cases hrefused

theorem backedElements_flat {payload : List UInt8} (count start : ℕ) :
    BackedElements payload language (fun _ => True) count start := by
  induction count generalizing start with
  | zero => trivial
  | succ count ih => exact ⟨trivial, fun _ _ _ => ih _⟩

/-- An array of two bytes that are there. -/
theorem decode_requests_accounted_pair :
    Accounted [2, 0, 0, 0, 5, 6] 0
      (valueEvents Allocator.bump [2, 0, 0, 0, 5, 6] (IdlType.array (.int .u8)).kindFor
        (IdlType.array (.int .u8)).typeMeta 16 ⟨⟨fun _ => 0, [⟨16, 16⟩]⟩, 0⟩) := by
  refine ((decode_requests_accounted_iff _ _).2 Allocator.bump _ 16
    ⟨⟨fun _ => 0, [⟨16, 16⟩]⟩, 0⟩ (by decide)).1 ?_
  intro count hcount hheader hfits
  have htwo : Carries [2, 0, 0, 0, 5, 6] 0 (leBytes 4 2) := ⟨[], [5, 6], rfl, rfl⟩
  rw [carries_count_unique (by decide) hcount htwo hheader]
  exact ⟨by decide, backedElements_flat 2 4⟩

/-- Four bytes make the decoder of an array of 64-bit numbers request 32 GiB. -/
theorem four_bytes_request_array :
    valueEvents Allocator.bump [255, 255, 255, 255] (IdlType.array (.int .u64)).kindFor
        (IdlType.array (.int .u64)).typeMeta 16 ⟨⟨fun _ => 0, [⟨16, 16⟩]⟩, 0⟩ =
        [.read 0 4, .calloc 4294967295 8 true] ∧
      totalRequested [.read 0 4, .calloc 4294967295 8 true] = 34359738360 ∧
      ¬ Accounted [255, 255, 255, 255] 0 [.read 0 4, .calloc 4294967295 8 true] := by
  refine ⟨?_, by decide, by decide⟩
  rfl

end FacetOS.Rpc
