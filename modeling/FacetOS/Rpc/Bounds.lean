import FacetOS.Rpc.Decoding

/-!
# The decoder on arbitrary bytes

Bounds that hold in every run of the decoder, whatever the payload and whatever the
allocator answers: the bytes it reads are consecutive and lie inside the payload, no
request exceeds `size_t`, and memory only runs out where a request was refused.
Together with the grammar this says exactly which bytes are accepted.
-/

namespace FacetOS.Rpc

open LittleEndian ByteMemory

/-- The reads among the events follow each other without gap or overlap, from the
start offset to the stop offset. -/
def Consecutive : ℕ → List DecodeEvent → ℕ → Prop
  | start, [], stop => start = stop
  | start, .read offset size :: rest, stop => offset = start ∧ Consecutive (start + size) rest stop
  | start, .malloc _ _ :: rest, stop => Consecutive start rest stop
  | start, .calloc _ _ _ :: rest, stop => Consecutive start rest stop

theorem Consecutive.append {events later : List DecodeEvent} {start middle stop : ℕ}
    (hfirst : Consecutive start events middle) (hlater : Consecutive middle later stop) :
    Consecutive start (events ++ later) stop := by
  induction events generalizing start with
  | nil =>
    cases hfirst
    exact hlater
  | cons event rest ih =>
    cases event with
    | read offset size => exact ⟨hfirst.1, ih hfirst.2⟩
    | malloc length granted => exact ih hfirst
    | calloc count size granted => exact ih hfirst

section

variable {events : List DecodeEvent} {start stop : ℕ} (hreads : Consecutive start events stop)
include hreads

theorem Consecutive.le
    : start ≤ stop := by
  induction events generalizing start with
  | nil => exact Nat.le_of_eq hreads
  | cons event rest ih =>
    cases event with
    | read offset size => exact (Nat.le_add_right start size).trans (ih hreads.2)
    | malloc length granted => exact ih hreads
    | calloc count size granted => exact ih hreads

/-- Every read lies between the two ends. -/
theorem Consecutive.read_within {offset size : ℕ} (hread : .read offset size ∈ events) :
    start ≤ offset ∧ offset + size ≤ stop := by
  induction events generalizing start with
  | nil => cases hread
  | cons event rest ih =>
    cases event with
    | read first width =>
      obtain ⟨rfl, hrest⟩ := hreads
      rcases List.mem_cons.mp hread with hsame | hlater
      · cases hsame
        exact ⟨le_rfl, hrest.le⟩
      · obtain ⟨hlower, hupper⟩ := ih hrest hlater
        exact ⟨(Nat.le_add_right first width).trans hlower, hupper⟩
    | malloc length granted =>
      exact ih hreads ((List.mem_cons.mp hread).resolve_left nofun)
    | calloc count width granted =>
      exact ih hreads ((List.mem_cons.mp hread).resolve_left nofun)

end

/-- What holds in every run. -/
structure Bounded (payload : List UInt8) (start : ℕ) (trace : Trace) : Prop where
  consecutive : Consecutive start trace.events trace.stop
  stop_le : start ≤ payload.length → trace.stop ≤ payload.length
  requested_le : ∀ event ∈ trace.events, event.requested ≤ sizeMax
  refused_iff : (∃ event ∈ trace.events, event.refused = true) ↔
    trace.code = .error .outOfMemory

section Runs

variable {payload : List UInt8} {start : ℕ} {trace : Trace}

/-- A run that fails before it has done anything. -/
theorem bounded_refused {failure : FacetError} (hfailure : failure ≠ .outOfMemory)
    (htrace : RefusedRun failure start trace) : Bounded payload start trace := by
  cases htrace
  exact
    { consecutive := rfl
      stop_le := id
      requested_le := by simp
      refused_iff := by simp [hfailure] }

theorem bounded_done (htrace : DoneRun start trace) : Bounded payload start trace := by
  cases htrace
  exact
    { consecutive := rfl
      stop_le := id
      requested_le := by simp
      refused_iff := by simp }

/-- A run that reads once and requests nothing. -/
theorem bounded_once {size : ℕ} {code : Except FacetError Unit}
    (hle : start + size ≤ payload.length) (hcode : code ≠ .error .outOfMemory) :
    Bounded payload start ⟨[.read start size], code, start + size⟩ where
  consecutive := ⟨rfl, rfl⟩
  stop_le _ := hle
  requested_le := by simp [DecodeEvent.requested]
  refused_iff := by simp [DecodeEvent.refused, hcode]

theorem bounded_read {size : ℕ} (htrace : ReadRun payload size start trace) :
    Bounded payload start trace := by
  cases htrace with
  | short hshort => exact bounded_refused (by decide) rfl
  | copied hle => exact bounded_once hle nofun

theorem bounded_string (htrace : StringRun payload start trace) :
    Bounded payload start trace := by
  have hrequest {length : ℕ} (hlength : length < 2 ^ 32) : length + 1 ≤ sizeMax := by
    rw [sizeMax]
    omega
  cases htrace with
  | short hshort => exact bounded_refused (by decide) rfl
  | cut length hlength hheader hshort => exact bounded_once hheader.header_le (by decide)
  | refused length hlength hheader hle =>
    exact
      { consecutive := ⟨rfl, rfl⟩
        stop_le := fun _ => (Nat.le_add_right _ _).trans hle
        requested_le := by simpa [DecodeEvent.requested] using hrequest hlength
        refused_iff := by simp [DecodeEvent.refused] }
  | copied length hlength hheader hle =>
    exact
      { consecutive := ⟨rfl, rfl, rfl⟩
        stop_le := fun _ => hle
        requested_le := by simpa [DecodeEvent.requested] using hrequest hlength
        refused_iff := by simp [DecodeEvent.refused] }

theorem bounded_then {first second : ℕ → Trace → Prop}
    (hfirst : ∀ {trace}, first start trace → Bounded payload start trace)
    (hsecond : ∀ {middle trace}, second middle trace → Bounded payload middle trace)
    (htrace : ThenRun first second start trace) : Bounded payload start trace := by
  cases htrace with
  | failed hfailed => exact hfirst hfailed
  | @next events middle trace hok hlater =>
    have hbefore := hfirst hok
    have hbehind := hsecond hlater
    exact
      { consecutive := hbefore.consecutive.append hbehind.consecutive
        stop_le := fun hstart => hbehind.stop_le (hbefore.stop_le hstart)
        requested_le := by
          intro event hevent
          rcases List.mem_append.mp hevent with hearly | hlate
          · exact hbefore.requested_le event hearly
          · exact hbehind.requested_le event hlate
        refused_iff := by
          -- No request of the first part was refused, because it succeeded.
          have hnone : ¬ ∃ event ∈ events, event.refused = true := by
            rw [hbefore.refused_iff]
            exact fun hcode => nomatch hcode
          rw [← hbehind.refused_iff]
          constructor
          · rintro ⟨event, hevent, hrefused⟩
            rcases List.mem_append.mp hevent with hearly | hlate
            · exact absurd ⟨event, hearly, hrefused⟩ hnone
            · exact ⟨event, hlate, hrefused⟩
          · rintro ⟨event, hevent, hrefused⟩
            exact ⟨event, List.mem_append_right _ hevent, hrefused⟩ }

section

variable {element : ℕ → Trace → Prop}
  (hstep : ∀ {start trace}, element start trace → Bounded payload start trace)
include hstep

theorem bounded_elements {count : ℕ}
    (htrace : ElementsRun element count start trace) : Bounded payload start trace := by
  induction count generalizing start trace with
  | zero => exact bounded_done htrace
  | succ count ih => exact bounded_then hstep ih htrace

theorem bounded_array {elementSize : ℕ}
    (htrace : ArrayRun payload elementSize element start trace) :
    Bounded payload start trace := by
  cases htrace with
  | short hshort => exact bounded_refused (by decide) rfl
  | unfit count hcount hheader hunfit => exact bounded_once hheader.header_le (by decide)
  | empty hheader => exact bounded_once hheader.header_le nofun
  | refused count hcount hheader hfits hnonzero =>
    exact
      { consecutive := ⟨rfl, rfl⟩
        stop_le := fun _ => hheader.header_le
        requested_le := by simpa [DecodeEvent.requested] using hfits.2
        refused_iff := by simp [DecodeEvent.refused] }
  | @elements count hcount hheader hfits hnonzero trace hrun =>
    have hparts := bounded_elements hstep hrun
    exact
      { consecutive := ⟨rfl, hparts.consecutive⟩
        stop_le := fun _ => hparts.stop_le hheader.header_le
        requested_le := by
          simpa [DecodeEvent.requested] using ⟨hfits.2, hparts.requested_le⟩
        refused_iff := by simpa [DecodeEvent.refused] using hparts.refused_iff }

end

theorem bounded_flat {kind : FacetType} (htrace : FlatRun payload kind start trace) :
    Bounded payload start trace := by
  cases kind with
  | string => exact bounded_string htrace
  | bool | uuid | u8 | u16 | u32 | u64 | i8 | i16 | i32 | i64 => exact bounded_read htrace
  | handle | bytes | localPtr | enum | struct | array =>
    exact bounded_refused (by decide) htrace

end Runs

theorem bounded_value (payload : List UInt8) :
    (∀ kind metadata {start trace}, ValueRun payload kind metadata start trace →
      Bounded payload start trace) ∧
      ∀ fields {start trace}, FieldsRun payload fields start trace →
        Bounded payload start trace := by
  refine description_induction (fun hflat _ _ htrace => ?_) (fun htrace => ?_)
    (bounded_refused (by decide)) (fun harray helement _ _ htrace => ?_)
    (fun hstruct hfields _ _ htrace => ?_) bounded_done
    (fun hfirst hrest _ _ => bounded_then hfirst hrest)
  · rw [valueRun_flat hflat] at htrace
    exact bounded_flat htrace
  · exact bounded_array (bounded_refused (by decide)) htrace
  · rw [ValueRun, harray] at htrace
    exact bounded_array helement htrace
  · rw [ValueRun, hstruct] at htrace
    exact hfields htrace

/-! ## What the decoder accepts -/

/-- For every payload, offset inside it and type description: the decoder reads
consecutive bytes up to its final offset, all inside the payload; no request it
computes exceeds `size_t`; and if no request is refused, it succeeds exactly when the
bytes at the offset begin with a word of the grammar whose arrays are storable. -/
theorem decode_accepts_iff (allocator : Allocator) (payload : List UInt8) (kind : FacetType)
    (metadata : FacetTypeMeta) (output : ℕ) (state : DecodeState)
    (hoffset : state.offset ≤ payload.length) :
    let result := decodeValue allocator payload kind metadata output state
    let events := valueEvents allocator payload kind metadata output state
    (∀ offset size, .read offset size ∈ events → offset + size ≤ payload.length) ∧
      Consecutive state.offset events result.2.offset ∧
      state.offset ≤ result.2.offset ∧ result.2.offset ≤ payload.length ∧
      (∀ event ∈ events, event.requested ≤ sizeMax) ∧
      ((∀ event ∈ events, event.refused = false) →
        (result.1 = .ok () ↔
          ∃ word, Spells Storable kind metadata word ∧
            word.bytes <+: payload.drop state.offset)) := by
  intro result events
  have hrun := (decodeValue_run allocator payload).1 kind metadata output state
  have hbounded := (bounded_value payload).1 kind metadata hrun
  have hstop : result.2.offset ≤ payload.length := hbounded.stop_le hoffset
  refine ⟨?_, hbounded.consecutive, hbounded.consecutive.le, hstop, hbounded.requested_le, ?_⟩
  · intro offset size hread
    exact (hbounded.consecutive.read_within hread).2.trans hstop
  intro hgranted
  have hmemory : result.1 ≠ .error .outOfMemory := by
    intro hfailed
    obtain ⟨event, hevent, hrefused⟩ := hbounded.refused_iff.mpr hfailed
    rw [hgranted event hevent] at hrefused
    cases hrefused
  have hiff := ((follows_value payload).1 kind metadata hoffset hrun).ok_iff hmemory
  simp only [carries_iff, hoffset, true_and] at hiff
  exact hiff

/-- The payload of the string "hi" behind one other byte. -/
theorem decode_accepts_hi :
    (decodeValue Allocator.bump [7, 2, 0, 0, 0, 104, 105] IdlType.string.kindFor
      IdlType.string.typeMeta 16 ⟨⟨fun _ => 0, [⟨16, 16⟩]⟩, 1⟩).1 = .ok () := by
  have haccepts := decode_accepts_iff Allocator.bump [7, 2, 0, 0, 0, 104, 105]
    IdlType.string.kindFor IdlType.string.typeMeta 16 ⟨⟨fun _ => 0, [⟨16, 16⟩]⟩, 1⟩ (by decide)
  refine (haccepts.2.2.2.2.2 (by decide)).mpr ⟨.string [104, 105], ?_, [], rfl⟩
  exact ⟨rfl, by decide⟩

/-- An array of one empty struct is a word of the plain grammar, but the decoder
refuses it: its elements have no size. -/
theorem empty_struct_array_refused :
    (∃ word, Spells anyCount (IdlType.array (.struct 0 .nil)).kindFor
        (IdlType.array (.struct 0 .nil)).typeMeta word ∧
        word.bytes <+: ([1, 0, 0, 0] : List UInt8)) ∧
      (∀ event ∈ valueEvents Allocator.bump [1, 0, 0, 0]
        (IdlType.array (.struct 0 .nil)).kindFor (IdlType.array (.struct 0 .nil)).typeMeta 16
        ⟨⟨fun _ => 0, [⟨16, 16⟩]⟩, 0⟩, event.refused = false) ∧
      (decodeValue Allocator.bump [1, 0, 0, 0] (IdlType.array (.struct 0 .nil)).kindFor
        (IdlType.array (.struct 0 .nil)).typeMeta 16 ⟨⟨fun _ => 0, [⟨16, 16⟩]⟩, 0⟩).1 =
        .error .protocolError := by
  refine ⟨⟨.array [.struct []], ?_, [], rfl⟩, by decide, rfl⟩
  refine ⟨[.struct []], rfl, by decide, trivial, fun part hpart => ?_⟩
  rw [List.mem_singleton.mp hpart]
  exact ⟨[], rfl, rfl⟩

end FacetOS.Rpc
