import FacetOS.Core.Memory
import FacetOS.Core.Runs
import FacetOS.Rpc.Common

/-!
# The dynamic log store

After start-up the log is kept in a buffer from the kernel heap, with a zero byte
behind the text.  A message that does not fit makes the buffer grow, unless the
allocator itself is logging.
-/

namespace FacetOS.Kernel

open ByteMemory Runs
open Rpc (sizeMax)

/-- `klog_prod_buf` with its two counters.  Bytes that are written behind the buffer
are kept as well. -/
structure KlogProdBuf where
  buf : Memory
  used : ℕ
  size : ℕ

/-- One call: the message, whether the allocator is busy, and what `krealloc` brings
behind the bytes that it keeps, if it succeeds. -/
structure StoreRequest where
  data : List UInt8
  busy : Bool
  grown : Option Memory

/-- The indices that were written, unless the message was dropped or the kernel
panicked. -/
inductive StoreAnswer
  | stored (written : List ℕ)
  | dropped
  | panicked
  deriving DecidableEq

variable (log : KlogProdBuf)

/-- The loop that copies the message, and the byte behind it. -/
def KlogProdBuf.append (data : List UInt8) : KlogProdBuf :=
  let used := log.used + data.length
  ⟨store (store log.buf log.used data) used [0], used, log.size⟩

def KlogProdBuf.grow (size : ℕ) (grown : Memory) : KlogProdBuf :=
  { log with buf := fun index => if index < log.size then log.buf index else grown index, size }

def klogProdStoreFn (request : StoreRequest) : StoreAnswer × KlogProdBuf :=
  let len := request.data.length
  let stored := StoreAnswer.stored (List.range' log.used (len + 1))
  if log.size - log.used < len then
    if request.busy then (.dropped, log)
    else if sizeMax - log.used - 1 < len then (.panicked, log)
    else
      match request.grown with
      | none => (.panicked, log)
      | some grown => (stored, (log.grow (log.used + len + 1) grown).append request.data)
  else (stored, log.append request.data)

/-- The switch from the early buffer to one of `fresh` bytes. -/
def klogInitPostboot (fresh : Memory) (early : List UInt8) : KlogProdBuf :=
  KlogProdBuf.append ⟨fresh, 0, early.length + 1⟩ early

/-- The messages that were stored, one behind the other. -/
def storedText (calls : List (StoreRequest × StoreAnswer)) : List UInt8 :=
  calls.flatMap (fun (request, answer) =>
    match answer with
    | .stored _ => request.data
    | .dropped | .panicked => [])

/-- The message does not fill the buffer to its last byte. -/
def SparesLastByte (request : StoreRequest) : Prop :=
  request.data.length ≠ log.size - log.used

instance (log : KlogProdBuf) (request : StoreRequest) : Decidable (SparesLastByte log request) :=
  inferInstanceAs (Decidable (_ ≠ _))

/-- No index behind the buffer is written, and a message is dropped only when it does
not fit while the allocator is busy. -/
def Contained (request : StoreRequest) : Prop :=
  match klogProdStoreFn log request with
  | (.stored written, after) => ∀ index ∈ written, index < after.size
  | (.dropped, _) => request.busy = true ∧ log.size - log.used < request.data.length
  | (.panicked, _) => True

/-- The buffer holds a text and the byte that terminates it. -/
structure Holds (text : List UInt8) (log : KlogProdBuf) : Prop where
  used : log.used = text.length
  room : log.used < log.size
  text : load log.buf 0 log.used = text
  terminator : log.buf log.used = 0

/-! ## One call -/

theorem load_split (memory : Memory) (first second : ℕ) :
    load memory 0 (first + second) = load memory 0 first ++ load memory first second := by
  simp [load, List.range_add, Function.comp_def]

variable {text : List UInt8}

/-- Appending writes behind the text, whatever stands there. -/
theorem holds_append {log : KlogProdBuf} (hused : log.used = text.length)
    (htext : load log.buf 0 log.used = text) {data : List UInt8}
    (hroom : log.used + data.length < log.size) : Holds (text ++ data) (log.append data) where
  used := by rw [KlogProdBuf.append, List.length_append, hused]
  room := hroom
  terminator := by simp [KlogProdBuf.append, store]
  text := by
    have hbefore : ∀ index < log.used + data.length,
        (log.append data).buf index = store log.buf log.used data index := by
      intro index hindex
      exact store_outside (fun hcovers => absurd hcovers.1 (not_le.mpr hindex))
    change load (log.append data).buf 0 (log.used + data.length) = text ++ data
    rw [load_split]
    congr 1
    · rw [← htext]
      refine load_congr (fun index hindex => ?_)
      have hlt : index < log.used := by simpa using hindex.2
      rw [hbefore index (by omega)]
      exact store_outside (fun hcovers => absurd hcovers.1 (not_le.mpr hlt))
    · rw [load_congr (fun index hindex => hbefore index hindex.2), load_store]

/-- What a call does: it stores the message, in the buffer as it is or in one with a
byte to spare, or it leaves the buffer. -/
theorem klogProdStoreFn_cases (request : StoreRequest) :
    (∃ base : KlogProdBuf, klogProdStoreFn log request
        = (.stored (List.range' log.used (request.data.length + 1)), base.append request.data)
      ∧ base.used = log.used ∧ (∀ index < log.size, base.buf index = log.buf index)
      ∧ (base = log ∧ request.data.length ≤ log.size - log.used
        ∨ log.used + request.data.length < base.size))
    ∨ klogProdStoreFn log request = (.dropped, log) ∧ request.busy = true
      ∧ log.size - log.used < request.data.length
    ∨ klogProdStoreFn log request = (.panicked, log) := by
  unfold klogProdStoreFn
  dsimp only
  split
  · rename_i hlong
    split
    · rename_i hbusy
      exact .inr (.inl ⟨rfl, hbusy, hlong⟩)
    · split
      · exact .inr (.inr rfl)
      · cases request.grown with
        | none => exact .inr (.inr rfl)
        | some grown =>
          exact .inl ⟨_, rfl, rfl, fun index hindex => if_pos hindex, .inr (Nat.lt_succ_self _)⟩
  · rename_i hfits
    exact .inl ⟨log, rfl, rfl, fun _ _ => rfl, .inl ⟨rfl, not_lt.mp hfits⟩⟩

theorem Holds.step {log : KlogProdBuf} (hlog : Holds text log)
    {request : StoreRequest} (hspares : SparesLastByte log request) :
    Contained log request ∧
      Holds (text ++ storedText [(request, (klogProdStoreFn log request).1)])
        (klogProdStoreFn log request).2 := by
  have hkept : Holds (text ++ []) log := by rwa [List.append_nil]
  obtain ⟨base, hcall, hused, hbuf, hsize⟩ | ⟨hcall, hdropped⟩ | hcall :=
    klogProdStoreFn_cases log request
  · have hroom : log.used + request.data.length < base.size := by
      obtain ⟨rfl, hle⟩ | hlt := hsize
      · have hless := lt_of_le_of_ne hle hspares
        omega
      · exact hlt
    have htext : load base.buf 0 base.used = text := by
      rw [hused, ← hlog.text]
      refine load_congr (fun index hindex => hbuf index ?_)
      exact lt_of_lt_of_le hindex.2 (by simpa using hlog.room.le)
    rw [Contained, hcall]
    refine ⟨fun index hindex => ?_, ?_⟩
    · have hrange := List.mem_range'_1.mp hindex
      simp only [KlogProdBuf.append]
      omega
    · simpa [storedText] using
        holds_append (hused.trans hlog.used) htext (by rwa [hused])
  · rw [Contained, hcall]
    exact ⟨hdropped, hkept⟩
  · rw [Contained, hcall]
    exact ⟨trivial, hkept⟩

/-- A message that fills the buffer to its last byte has its zero byte written behind it. -/
theorem Holds.spares {log : KlogProdBuf} (hlog : Holds text log)
    {request : StoreRequest} (hcontained : Contained log request) :
    SparesLastByte log request := by
  intro hfull
  have hroom := hlog.room
  have hcall : klogProdStoreFn log request
      = (.stored (List.range' log.used (request.data.length + 1)), log.append request.data) :=
    if_neg (by omega)
  rw [Contained, hcall] at hcontained
  exact lt_irrefl _ (hcontained log.size (List.mem_range'_1.mpr (by omega)))

/-! ## Runs -/

theorem Holds.run {log : KlogProdBuf} (hlog : Holds text log) {requests : List StoreRequest}
    (hspares : Along klogProdStoreFn SparesLastByte log requests) :
    Holds (text ++ storedText (trace klogProdStoreFn log requests))
      (outputs klogProdStoreFn log requests).2 := by
  induction requests generalizing text log with
  | nil => simpa [trace, storedText] using hlog
  | cons request requests ih =>
    have htext : storedText (trace klogProdStoreFn log (request :: requests))
        = storedText [(request, (klogProdStoreFn log request).1)]
          ++ storedText (trace klogProdStoreFn (klogProdStoreFn log request).2 requests) := by
      simp [trace, storedText]
    rw [htext, ← List.append_assoc]
    exact ih (hlog.step hspares.1).2 hspares.2

theorem holds_klogInitPostboot (fresh : Memory) (early : List UInt8) :
    Holds early (klogInitPostboot fresh early) := by
  let empty : KlogProdBuf := ⟨fresh, 0, early.length + 1⟩
  have hroom : empty.used + early.length < empty.size := by
    change 0 + early.length < early.length + 1
    omega
  exact (holds_append rfl rfl hroom : Holds ([] ++ early) _)

/-- Nothing is written behind the buffer along a run, and it holds the early text and the
messages that were stored, exactly if every message spares the last byte. -/
theorem log_store_holds_iff {fresh : Memory} {early : List UInt8} {requests : List StoreRequest} :
    Along klogProdStoreFn Contained (klogInitPostboot fresh early) requests ∧
      Holds (early ++ storedText (trace klogProdStoreFn (klogInitPostboot fresh early) requests))
        (outputs klogProdStoreFn (klogInitPostboot fresh early) requests).2 ↔
      Along klogProdStoreFn SparesLastByte (klogInitPostboot fresh early) requests := by
  have hstart := holds_klogInitPostboot fresh early
  have hsame : ∀ log request, (∃ text, Holds text log) →
      (Contained log request ↔ SparesLastByte log request) := by
    rintro log request ⟨text, hlog⟩
    exact ⟨hlog.spares, fun hspares => (hlog.step hspares).1⟩
  rw [along_congr hsame (fun log request ⟨text, hlog⟩ hspares => ⟨_, (hlog.step hspares).2⟩)
    ⟨early, hstart⟩]
  exact ⟨And.left, fun hspares => ⟨hspares, hstart.run hspares⟩⟩

/-- Two messages that make the buffer grow, with one between them that is dropped. -/
theorem log_store_holds_grown :
    Along klogProdStoreFn Contained (klogInitPostboot (fun _ => 7) [1])
      [⟨[2, 3], false, some fun _ => 9⟩, ⟨[4, 5], true, none⟩, ⟨[6, 7], false, some fun _ => 8⟩] :=
  (log_store_holds_iff.mpr (by decide)).1

/-- The first message of one byte fills the buffer, and the zero byte goes behind it. -/
theorem full_buffer_overrun : ¬Contained (klogInitPostboot (fun _ => 7) []) ⟨[1], false, none⟩ ∧
    ¬(klogProdStoreFn (klogInitPostboot (fun _ => 7) []) ⟨[1], false, none⟩).2.used
      < (klogProdStoreFn (klogInitPostboot (fun _ => 7) []) ⟨[1], false, none⟩).2.size := by
  refine ⟨fun hcontained => ?_, by decide⟩
  exact absurd (hcontained 1 (by decide)) (by decide)

end FacetOS.Kernel
