import Mathlib

/-!
# Serial output of a seat

`seat_platform_write` waits for the transmitter before each byte and gives up after a
million polls.  The counter of the loop is tested behind it: a transmitter that gets ready
at the last poll counts as one that never did, and one that never gets ready is written to.
-/

namespace FacetOS.Seat

/-! ## The ports -/

/-- An answer of the line status port. -/
inductive StatusReading
  | failed
  | value (result : UInt8)
  deriving DecidableEq

def transmitterReady (result : UInt8) : Bool := result &&& 0x20 != 0

/-- A reading that ends the wait for the transmitter. -/
def StatusReading.decides : StatusReading → Bool
  | .failed => true
  | .value result => transmitterReady result

/-- What the ports answer: `status index poll` to a poll for byte `index`, and `accepts index`
to that byte. -/
structure SerialPorts where
  status : ℕ → ℕ → StatusReading
  accepts : ℕ → Bool

/-- An access to a port with its answer. -/
inductive PortAccess
  | status (reading : StatusReading)
  | send (byte : UInt8) (accepted : Bool)
  deriving DecidableEq

/-! ## The write -/

@[irreducible] def pollLimit : ℕ := 1000000

theorem pollLimit_eq : pollLimit = 1000000 := by
  unfold pollLimit
  rfl

/-- The loop `while (spins-- != 0)` over a sequence of answers: its polls and the counter
behind it, or none if the function has returned.  The last test decrements a zero. -/
def pollStatus : ℕ → (ℕ → StatusReading) → List PortAccess × Option UInt32
  | 0, _ => ([], some (0 - 1))
  | spins + 1, answers =>
    match answers 0 with
    | .failed => ([.status .failed], none)
    | .value result =>
      if transmitterReady result then ([.status (.value result)], some (UInt32.ofNat spins))
      else
        let (polls, counter) := pollStatus spins fun poll => answers (poll + 1)
        (.status (.value result) :: polls, counter)

/-- The port accesses of `seat_platform_write` from byte `index` on, and its result. -/
def seatPlatformWrite (ports : SerialPorts) : List UInt8 → ℕ → List PortAccess × Int32
  | [], _ => ([], 0)
  | byte :: data, index =>
    match pollStatus pollLimit (ports.status index) with
    | (polls, none) => (polls, -1)
    | (polls, some spins) =>
      if spins = 0 then (polls, -1)
      else if ports.accepts index then
        let (accesses, result) := seatPlatformWrite ports data (index + 1)
        (polls ++ .send byte true :: accesses, result)
      else (polls ++ [.send byte false], -1)

/-! ## What a write should do -/

def pollsOf (answers : ℕ → StatusReading) (count : ℕ) : List PortAccess :=
  (List.range count).map fun poll => .status (answers poll)

/-- The first of the admitted polls that ends the wait. -/
def decisivePoll (answers : ℕ → StatusReading) : Option ℕ :=
  (List.range pollLimit).find? fun poll => (answers poll).decides

/-- Each byte is sent after a poll that found the transmitter ready; the write fails if
none of the admitted polls does or if a port fails. -/
def referenceWrite (ports : SerialPorts) : List UInt8 → ℕ → List PortAccess × Int32
  | [], _ => ([], 0)
  | byte :: data, index =>
    match decisivePoll (ports.status index) with
    | none => (pollsOf (ports.status index) pollLimit, -1)
    | some poll =>
      let polls := pollsOf (ports.status index) (poll + 1)
      if ports.status index poll = .failed then (polls, -1)
      else if ports.accepts index then
        let (accesses, result) := referenceWrite ports data (index + 1)
        (polls ++ .send byte true :: accesses, result)
      else (polls ++ [.send byte false], -1)

/-! ## The loop -/

section Loop

variable {answers : ℕ → StatusReading} {spins poll : ℕ}

theorem pollsOf_succ (answers : ℕ → StatusReading) (count : ℕ) :
    pollsOf answers (count + 1) =
      .status (answers 0) :: pollsOf (fun poll => answers (poll + 1)) count := by
  simp [pollsOf, List.range_succ_eq_map, Function.comp_def]

theorem pollStatus_succ (spins : ℕ) (hwaits : (answers 0).decides = false) :
    pollStatus (spins + 1) answers =
      (.status (answers 0) :: (pollStatus spins fun poll => answers (poll + 1)).1,
        (pollStatus spins fun poll => answers (poll + 1)).2) := by
  rw [pollStatus]
  cases hfirst : answers 0 with
  | failed => simp [hfirst, StatusReading.decides] at hwaits
  | value result =>
    rw [hfirst, StatusReading.decides] at hwaits
    simp [hwaits]

/-- Without a decisive poll the counter has wrapped. -/
theorem pollStatus_of_waiting (hwaits : ∀ poll < spins, (answers poll).decides = false) :
    pollStatus spins answers = (pollsOf answers spins, some (0 - 1)) := by
  induction spins generalizing answers with
  | zero => rfl
  | succ spins ih =>
    rw [pollStatus_succ spins (hwaits 0 (by omega)), pollsOf_succ,
      ih fun poll hpoll => hwaits (poll + 1) (by omega)]

/-- The counter behind a decisive poll tells how many polls were left. -/
theorem pollStatus_of_decides (hwaits : ∀ earlier < poll, (answers earlier).decides = false)
    (hdecides : (answers poll).decides = true) (hpoll : poll < spins) :
    pollStatus spins answers = (pollsOf answers (poll + 1),
      if answers poll = .failed then none else some (UInt32.ofNat (spins - 1 - poll))) := by
  induction poll generalizing answers spins with
  | zero =>
    obtain ⟨spins, rfl⟩ := Nat.exists_eq_succ_of_ne_zero hpoll.ne'
    rw [pollStatus]
    cases hfirst : answers 0 with
    | failed => simp [pollsOf, hfirst]
    | value result =>
      rw [hfirst, StatusReading.decides] at hdecides
      simp [pollsOf, hfirst, hdecides]
  | succ poll ih =>
    obtain ⟨spins, rfl⟩ := Nat.exists_eq_succ_of_ne_zero (Nat.ne_zero_of_lt hpoll)
    rw [pollStatus_succ spins (hwaits 0 (by omega)), pollsOf_succ,
      ih (fun earlier hearlier => hwaits (earlier + 1) (by omega)) hdecides (by omega)]
    rw [show spins + 1 - 1 - (poll + 1) = spins - 1 - poll by omega]

end Loop

/-! ## Writes -/

namespace SerialPorts

variable (ports : SerialPorts) (index : ℕ)

/-- An admitted poll finds the transmitter ready for byte `index`, and the port takes it. -/
def Sends : Prop :=
  ∃ poll, decisivePoll (ports.status index) = some poll ∧ ports.status index poll ≠ .failed ∧
    ports.accepts index = true

/-- All polls but the last find the transmitter busy, and the last one does not fail. -/
def Late : Prop :=
  (∀ poll < pollLimit - 1, (ports.status index poll).decides = false) ∧
    ports.status index (pollLimit - 1) ≠ .failed

end SerialPorts

/-- None of `size` bytes from `index` on is late when its turn comes. -/
def SerialPorts.Prompt (ports : SerialPorts) : ℕ → ℕ → Prop
  | 0, _ => True
  | size + 1, index => ¬ports.Late index ∧ (ports.Sends index → ports.Prompt size (index + 1))

/-- The write behaves as it should exactly when no byte whose turn comes has a transmitter
that is busy for all polls but the last, with a last poll that does not fail. -/
theorem seatPlatformWrite_eq_iff (ports : SerialPorts) (data : List UInt8) (index : ℕ) :
    seatPlatformWrite ports data index = referenceWrite ports data index ↔
      ports.Prompt data.length index := by
  have hlimit := pollLimit_eq
  induction data generalizing index with
  | nil => simp [seatPlatformWrite, referenceWrite, SerialPorts.Prompt]
  | cons byte data ih =>
    rw [List.length_cons, SerialPorts.Prompt, seatPlatformWrite, referenceWrite]
    cases hfind : decisivePoll (ports.status index) with
    | none =>
      -- The counter has wrapped, and the byte is sent.
      have hwaits : ∀ poll < pollLimit, (ports.status index poll).decides = false := by
        simpa [decisivePoll] using hfind
      have hlate : ports.Late index := by
        refine ⟨fun poll hpoll => hwaits poll (by omega), fun hfailed => ?_⟩
        have hlast := hwaits (pollLimit - 1) (by omega)
        simp [hfailed, StatusReading.decides] at hlast
      rw [pollStatus_of_waiting hwaits]
      simp only [hlate, not_true, false_and, iff_false]
      rw [if_neg (by decide)]
      split <;> simp
    | some poll =>
      obtain ⟨hdecides, hlt, hwaits⟩ : (ports.status index poll).decides = true ∧
          poll < pollLimit ∧ ∀ earlier < poll, (ports.status index earlier).decides = false := by
        simpa [decisivePoll, List.find?_range_eq_some] using hfind
      have hlate : ports.Late index ↔
          poll = pollLimit - 1 ∧ ports.status index poll ≠ .failed := by
        constructor
        · rintro ⟨hbusy, hlast⟩
          rcases Nat.lt_or_ge poll (pollLimit - 1) with hless | hge
          · simp [hbusy poll hless] at hdecides
          · obtain rfl : poll = pollLimit - 1 := by omega
            exact ⟨rfl, hlast⟩
        · rintro ⟨rfl, hlast⟩
          exact ⟨hwaits, hlast⟩
      have hsends : ports.Sends index ↔
          ports.status index poll ≠ .failed ∧ ports.accepts index = true := by
        simp [SerialPorts.Sends, hfind]
      rw [pollStatus_of_decides hwaits hdecides hlt, hlate, hsends]
      have hrest := (ih (index + 1)).symm
      by_cases hfailed : ports.status index poll = .failed
      · simp [hfailed]
      by_cases hlast : poll = pollLimit - 1
      · subst hlast
        have hzero : UInt32.ofNat (pollLimit - 1 - (pollLimit - 1)) = 0 := by
          rw [Nat.sub_self]
          rfl
        simp only [hfailed, if_false, hzero, if_true]
        split <;> simp [hfailed]
      · have hleft : UInt32.ofNat (pollLimit - 1 - poll) ≠ 0 := by
          intro hzero
          have hnat := congrArg UInt32.toNat hzero
          rw [UInt32.toNat_ofNat', Nat.mod_eq_of_lt (by omega)] at hnat
          simp at hnat
          omega
        cases haccepts : ports.accepts index <;> simp [hfailed, hlast, hleft, hrest, Prod.ext_iff]

/-- A transmitter that is never ready. -/
def busyPorts : SerialPorts := ⟨fun _ _ => .value 0, fun _ => true⟩

/-- A byte for which every poll found the transmitter busy is sent, and the write reports
success. -/
theorem busy_byte_sent :
    seatPlatformWrite busyPorts [0x41] 0 =
        (pollsOf (fun _ => .value 0) pollLimit ++ [.send 0x41 true], 0) ∧
      seatPlatformWrite busyPorts [0x41] 0 ≠ referenceWrite busyPorts [0x41] 0 := by
  have hwaits : ∀ poll < pollLimit, ((busyPorts.status 0) poll).decides = false :=
    fun _ _ => rfl
  have hwrite : seatPlatformWrite busyPorts [0x41] 0 =
      (pollsOf (fun _ => .value 0) pollLimit ++ [.send 0x41 true], 0) := by
    rw [seatPlatformWrite, pollStatus_of_waiting hwaits]
    rfl
  refine ⟨hwrite, ?_⟩
  have hnone : decisivePoll (busyPorts.status 0) = none := by
    simpa [decisivePoll] using hwaits
  rw [hwrite, referenceWrite, hnone]
  simp [busyPorts]

end FacetOS.Seat
