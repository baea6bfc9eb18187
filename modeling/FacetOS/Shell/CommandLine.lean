import FacetOS.Core.Checked
import FacetOS.Core.Text

/-!
# The command line of the shell

`facet_shell_parse_command` splits a line in place: it writes the arguments over bytes of
the line.  In the model a byte may be overwritten only after it has been read, the line
ends at its terminator, and the argument array has `capacity` places; everything else is a
fault.  What the parser returns is compared with a reader that takes the line byte by byte.
-/

namespace FacetOS.Shell

open Checked

def isBlank (byte : UInt8) : Bool := byte == 32 || byte == 9

def isQuote (byte : UInt8) : Bool := byte == 39 || byte == 34

def backslash : UInt8 := 92

/-! ## The parser -/

/-- The line with its terminator, the number of bytes of it that have been read, the two
cursors, and the stored arguments as positions in the line. -/
structure CommandLine where
  buffer : List UInt8
  seen : ℕ
  source : ℕ
  destination : ℕ
  arguments : List ℕ

/-- The byte at `source` has been read. -/
def CommandLine.looked (state : CommandLine) : CommandLine :=
  { state with seen := max state.seen (state.source + 1) }

/-- `*source` -/
def CommandLine.peek (state : CommandLine) : Except Fault (UInt8 × CommandLine) := do
  return (← load state.buffer state.source, state.looked)

/-- `source++` -/
def CommandLine.advance (state : CommandLine) : CommandLine :=
  { state with source := state.source + 1 }

/-- `*destination++ = byte` -/
def CommandLine.put (byte : UInt8) (state : CommandLine) : Except Fault CommandLine :=
  if state.destination < state.seen then do
    return { state with
      buffer := ← store state.buffer state.destination byte
      destination := state.destination + 1 }
  else .error (.outOfBounds state.destination)

/-- `arguments[(*count)++] = destination` -/
def CommandLine.start (capacity : ℕ) (state : CommandLine) : Except Fault CommandLine :=
  if state.arguments.length < capacity then
    .ok { state with arguments := state.arguments ++ [state.destination] }
  else .error (.outOfBounds state.arguments.length)

def skipBlanks : ℕ → CommandLine → Except Fault CommandLine
  | 0, _ => .error .exhausted
  | fuel + 1, state => do
    let (byte, state) ← state.peek
    if isBlank byte then skipBlanks fuel state.advance else .ok state

/-- The loop over the bytes of one argument; `none` is the result -1. -/
def scanArgument : ℕ → UInt8 → CommandLine → Except Fault (Option CommandLine)
  | 0, _, _ => .error .exhausted
  | fuel + 1, quote, state => do
    let (byte, state) ← state.peek
    if byte = 0 then .ok (if quote ≠ 0 then none else some state)
    else if byte = backslash then do
      let (byte, state) ← state.advance.peek
      if byte = 0 then .ok none
      else scanArgument fuel quote (← state.put byte).advance
    else if quote ≠ 0 then
      if byte = quote then scanArgument fuel 0 state.advance
      else do scanArgument fuel quote (← state.advance.put byte)
    else if isQuote byte then scanArgument fuel byte state.advance
    else if isBlank byte then .ok (some state)
    else do scanArgument fuel quote (← state.put byte).advance

/-- One argument, with the blanks behind it and its terminator. -/
def parseArgument (capacity : ℕ) (state : CommandLine) : Except Fault (Option CommandLine) := do
  match ← scanArgument state.buffer.length 0 (← state.start capacity) with
  | none => .ok none
  | some state => do
    let state ← skipBlanks state.buffer.length state
    return some (← state.put 0)

/-- The loop over the arguments; every round takes at least one byte. -/
def parseArguments (capacity : ℕ) : ℕ → CommandLine → Except Fault (Option CommandLine)
  | 0, _ => .error .exhausted
  | fuel + 1, state => do
    let (byte, state) ← state.peek
    if byte = 0 then .ok (some state)
    else do
      let state ← skipBlanks state.buffer.length state
      let (byte, state) ← state.peek
      if byte = 0 then .ok (some state)
      else if state.arguments.length = capacity then .ok none
      else do
        match ← parseArgument capacity state with
        | none => .ok none
        | some state => parseArguments capacity fuel state

/-- The arguments as strings. -/
def CommandLine.strings (state : CommandLine) : List (List UInt8) :=
  state.arguments.map fun start => cString (state.buffer.drop start)

/-- `facet_shell_parse_command` on a line with its terminator. -/
def facetShellParseCommand (capacity : ℕ) (line : List UInt8) :
    Except Fault (Option (List (List UInt8))) := do
  let parsed ← parseArguments capacity line.length ⟨line, 0, 0, 0, []⟩
  return parsed.map CommandLine.strings

/-! ## The reference -/

/-- What has been read of a line: the arguments that are complete, the one that has begun,
the open quote (0 outside quotes), and whether the next byte is taken literally. -/
structure Reader where
  finished : List (List UInt8)
  current : Option (List UInt8)
  quote : UInt8
  escaped : Bool

variable (reader : Reader)

def Reader.append (byte : UInt8) : Reader :=
  { reader with current := some (reader.current.getD [] ++ [byte]), escaped := false }

def Reader.read (byte : UInt8) : Reader :=
  if reader.escaped then reader.append byte
  else if byte = backslash then
    { reader with current := some (reader.current.getD []), escaped := true }
  else if reader.quote ≠ 0 then
    if byte = reader.quote then { reader with quote := 0 } else reader.append byte
  else if isQuote byte then
    { reader with current := some (reader.current.getD []), quote := byte }
  else if isBlank byte then
    { reader with finished := reader.finished ++ reader.current.toList, current := none }
  else reader.append byte

/-- An open quote and a backslash at the end are errors. -/
def Reader.arguments : Option (List (List UInt8)) :=
  if reader.escaped = true ∨ reader.quote ≠ 0 then none
  else some (reader.finished ++ reader.current.toList)

def Reader.readAll (line : List UInt8) : Option (List (List UInt8)) :=
  (line.foldl Reader.read reader).arguments

/-- The arguments of a line. -/
def tokens (line : List UInt8) : Option (List (List UInt8)) :=
  Reader.readAll ⟨[], none, 0, false⟩ line

theorem Reader.readAll_cons (byte : UInt8) (line : List UInt8) :
    reader.readAll (byte :: line) = (reader.read byte).readAll line := rfl

def Reader.count : ℕ := reader.finished.length + reader.current.toList.length

theorem Reader.count_le_read (byte : UInt8) : reader.count ≤ (reader.read byte).count := by
  unfold Reader.read Reader.count
  split_ifs <;> simp [Reader.append]

/-- Arguments that have begun are not lost. -/
theorem Reader.count_le_readAll {reader : Reader} {line : List UInt8}
    {arguments : List (List UInt8)} (hall : reader.readAll line = some arguments) :
    reader.count ≤ arguments.length := by
  induction line generalizing reader with
  | nil =>
    rw [Reader.readAll, List.foldl_nil, Reader.arguments, Option.ite_none_left_eq_some] at hall
    rw [← Option.some.inj hall.2, List.length_append, Reader.count]
  | cons byte line ih => exact (reader.count_le_read byte).trans (ih hall)

open Reader (readAll)

variable {finished : List (List UInt8)}

/-- A byte that is no blank begins an argument. -/
theorem Reader.read_start {byte : UInt8} (hbyte : ¬isBlank byte) :
    Reader.read ⟨finished, none, 0, false⟩ byte
      = Reader.read ⟨finished, some [], 0, false⟩ byte := by
  simp [Reader.read, Reader.append, hbyte]

/-- A blank finishes the argument that has begun. -/
theorem Reader.read_blank {current : Option (List UInt8)} {byte : UInt8} (hblank : isBlank byte) :
    Reader.read ⟨finished, current, 0, false⟩ byte =
      ⟨finished ++ current.toList, none, 0, false⟩ := by
  obtain rfl | rfl : byte = 32 ∨ byte = 9 := by simpa [isBlank] using hblank
  all_goals rfl

theorem Reader.readAll_dropWhile (finished : List (List UInt8)) (line : List UInt8) :
    readAll ⟨finished, none, 0, false⟩ (line.dropWhile isBlank) =
      readAll ⟨finished, none, 0, false⟩ line := by
  induction line with
  | nil => rfl
  | cons byte line ih =>
    by_cases hblank : isBlank byte
    · rw [List.dropWhile_cons_of_pos hblank, ih, readAll_cons, read_blank hblank]
      simp
    · rw [List.dropWhile_cons_of_neg hblank]

/-- What follows an argument begins with blanks or is empty. -/
theorem Reader.readAll_finish {current rest : List UInt8}
    (hstops : ∀ byte ∈ rest.head?, isBlank byte) :
    readAll ⟨finished, some current, 0, false⟩ rest =
      readAll ⟨finished ++ [current], none, 0, false⟩ (rest.dropWhile isBlank) := by
  rw [readAll_dropWhile]
  cases rest with
  | nil => simp [readAll, Reader.arguments]
  | cons byte rest =>
    rw [readAll_cons, readAll_cons, read_blank (hstops byte rfl), read_blank (hstops byte rfl)]
    simp

theorem length_dropWhile_blank {rest : List UInt8} (hstops : ∀ byte ∈ rest.head?, isBlank byte) :
    rest.dropWhile isBlank = [] ∨ (rest.dropWhile isBlank).length < rest.length := by
  cases rest with
  | nil => exact .inl rfl
  | cons byte rest =>
    rw [List.dropWhile_cons_of_pos (hstops byte rfl)]
    exact .inr (Nat.lt_succ_of_le (List.length_dropWhile_le isBlank rest))

section Parsing

variable {line text before rest : List UInt8} {state : CommandLine} {fuel : ℕ}

/-- The rest of the line is unread, and the text stands in front of `destination`. -/
structure Holds (rest text : List UInt8) (state : CommandLine) : Prop where
  unread : state.buffer.drop state.source = rest ++ [0]
  written : state.buffer.take state.destination = text

theorem source_lt_looked : state.looked.source < state.looked.seen :=
  Nat.lt_of_lt_of_le (Nat.lt_succ_self _) (le_max_right _ _)

theorem Holds.advance {byte : UInt8} (hstate : Holds (byte :: rest) text state) :
    Holds rest text state.advance where
  unread := by
    have hunread := congrArg List.tail hstate.unread
    rwa [List.tail_drop] at hunread
  written := hstate.written

theorem put_advance (byte : UInt8) (next : CommandLine → Except Fault (Option CommandLine)) :
    (state.put byte >>= fun state => next state.advance) = state.advance.put byte >>= next := by
  unfold CommandLine.put CommandLine.advance store
  split_ifs <;> rfl

section Holding

variable (hstate : Holds rest text state)
include hstate

theorem Holds.looked : Holds rest text state.looked :=
  ⟨hstate.unread, hstate.written⟩

theorem Holds.length_eq :
    state.buffer.length = state.source + rest.length + 1 := by
  have hlength := congrArg List.length hstate.unread
  simp at hlength
  omega

theorem Holds.rest_lt : rest.length < state.buffer.length := by
  have hlength := hstate.length_eq
  omega

theorem Holds.peek :
    state.peek = .ok (rest.headD 0, state.looked) := by
  have hbyte : state.buffer[state.source]? = some (rest.headD 0) := by
    rw [← List.head?_drop, hstate.unread]
    cases rest <;> rfl
  rw [CommandLine.peek, load_eq_ok hbyte]
  rfl

/-- A store into the bytes that have been read leaves the rest, also when it puts the
terminator on the terminator. -/
theorem Holds.put (byte : UInt8)
    (hseen : state.destination < state.seen) (hbehind : state.destination ≤ state.source)
    (hterminator : state.destination = state.source → rest = [] ∧ byte = 0) :
    ∃ buffer, state.put byte = .ok { state with buffer, destination := state.destination + 1 } ∧
      Holds rest (text ++ [byte]) { state with buffer, destination := state.destination + 1 } := by
  have hlength := hstate.length_eq
  have hbounds : state.destination < state.buffer.length := by omega
  refine ⟨state.buffer.set state.destination byte, ?_, ?_, ?_⟩
  · rw [CommandLine.put, if_pos hseen, store_eq_ok hbounds]
    rfl
  · dsimp only
    rw [List.drop_set, hstate.unread]
    split_ifs with hlt
    · rfl
    · obtain ⟨rfl, rfl⟩ := hterminator (by omega)
      rw [show state.destination - state.source = 0 by omega]
      rfl
  · exact (take_set_self hbounds byte).trans (congrArg (· ++ [byte]) hstate.written)

theorem skipBlanks_eq (hfuel : rest.length < fuel) :
    ∃ next, skipBlanks fuel state = .ok next ∧ Holds (rest.dropWhile isBlank) text next ∧
      next.source < next.seen ∧
      next.source + (rest.dropWhile isBlank).length = state.source + rest.length ∧
      next.destination = state.destination ∧ next.arguments = state.arguments := by
  induction fuel generalizing rest state with
  | zero => omega
  | succ fuel ih =>
    rw [skipBlanks, hstate.peek]
    cases rest with
    | nil => exact ⟨_, rfl, hstate.looked, source_lt_looked, rfl, rfl, rfl⟩
    | cons byte rest =>
      by_cases hblank : isBlank byte
      · obtain ⟨next, hskip, hnext, hseen, hsource, hfields⟩ :=
          ih hstate.looked.advance (by simpa using hfuel)
        rw [List.dropWhile_cons_of_pos hblank]
        exact ⟨next, by simpa [hblank] using hskip, hnext, hseen,
          hsource.trans (Nat.succ_add_eq_add_succ _ _), hfields⟩
      · rw [List.dropWhile_cons_of_neg hblank]
        exact ⟨state.looked, by simp [hblank], hstate.looked, source_lt_looked, rfl, rfl, rfl⟩

end Holding

/-- The byte in front is replaced by a byte of the text. -/
theorem Holds.put_next {first : UInt8} (hstate : Holds (first :: rest) text state) (byte : UInt8)
    (hbehind : state.destination ≤ state.source) :
    ∃ next, state.looked.advance.put byte = .ok next ∧ Holds rest (text ++ [byte]) next ∧
      next.destination ≤ next.source ∧ next.arguments = state.arguments := by
  have hseen : state.destination < max state.seen (state.source + 1) := by omega
  obtain ⟨buffer, hput, hnext⟩ := hstate.looked.advance.put byte hseen
    (Nat.le_succ_of_le hbehind) fun hterminator =>
      absurd (show state.destination = state.source + 1 from hterminator) (by omega)
  exact ⟨_, hput, hnext, Nat.succ_le_succ hbehind, rfl⟩

/-- The loop has stopped behind an argument. -/
structure Scanned (line before current rest : List UInt8) (arguments : List ℕ)
    (next : CommandLine) : Prop where
  holds : Holds rest (before ++ current) next
  behind : next.destination ≤ next.source
  nonzero : 0 ∉ current
  suffix : rest <:+ line
  stops : ∀ byte ∈ rest.head?, isBlank byte
  arguments_eq : next.arguments = arguments

/-- The loop over one argument fails where the reader does, or takes from the line what the
reader takes. -/
def Scans (line before : List UInt8) (arguments : List ℕ) (finished : List (List UInt8))
    (all : Option (List (List UInt8))) : Except Fault (Option CommandLine) → Prop
  | .error _ => False
  | .ok none => all = none
  | .ok (some next) => ∃ current rest, Scanned line before current rest arguments next ∧
      all = readAll ⟨finished, some current, 0, false⟩ rest

theorem scanArgument_scans (finished : List (List UInt8)) (quote : UInt8) (hline : 0 ∉ line)
    {current : List UInt8} (hstate : Holds rest (before ++ current) state)
    (hbehind : state.destination ≤ state.source) (hcurrent : 0 ∉ current)
    (hsuffix : rest <:+ line) (hfuel : rest.length < fuel) :
    Scans line before state.arguments finished
      (readAll ⟨finished, some current, quote, false⟩ rest)
      (scanArgument fuel quote state) := by
  induction fuel generalizing rest quote current state with
  | zero => omega
  | succ fuel ih =>
    -- what follows when a byte of the argument is stored
    have hstore {state : CommandLine} {first byte : UInt8} {rest : List UInt8}
        (hstate : Holds (first :: rest) (before ++ current) state)
        (hbehind : state.destination ≤ state.source) (hbyte : byte ≠ 0) (hrest : rest <:+ line)
        (hfuel : rest.length < fuel) : Scans line before state.arguments finished
          (readAll ⟨finished, some (current ++ [byte]), quote, false⟩ rest)
          (state.looked.advance.put byte >>= scanArgument fuel quote) := by
      obtain ⟨stored, hput, hstored, hbehind, harguments⟩ := hstate.put_next byte hbehind
      rw [hput, ← harguments]
      rw [List.append_assoc] at hstored
      exact ih quote hstored hbehind (by simp [hcurrent, hbyte.symm]) hrest hfuel
    have hbytes {byte : UInt8} {rest : List UInt8} (hrest : byte :: rest <:+ line) :
        byte ≠ 0 ∧ rest <:+ line :=
      ⟨fun hzero => hline (hrest.mem (hzero ▸ List.mem_cons_self)),
        (List.suffix_cons byte rest).trans hrest⟩
    rw [scanArgument, hstate.peek]
    cases rest with
    | nil =>
      by_cases hquote : quote = 0
      · subst hquote
        exact ⟨current, [], ⟨hstate.looked, hbehind, hcurrent, hsuffix, by simp, rfl⟩, rfl⟩
      · simp [Scans, readAll, Reader.arguments, hquote]
    | cons byte rest =>
      obtain ⟨hbyte, hrest⟩ := hbytes hsuffix
      have hfuel : rest.length < fuel := by simpa using hfuel
      have hadvance := hstate.looked.advance
      have hbehind' : state.destination ≤ state.looked.advance.source := Nat.le_succ_of_le hbehind
      simp only [ok_bind, List.headD_cons, if_neg hbyte, put_advance]
      simp only [Reader.readAll_cons, Reader.read, Bool.false_eq_true, if_false]
      by_cases hescape : byte = backslash
      · simp only [if_pos hescape]
        rw [hadvance.peek]
        cases rest with
        | nil => simp [Scans, readAll, Reader.arguments]
        | cons next rest =>
          obtain ⟨hnext, hrest⟩ := hbytes hrest
          simp only [ok_bind, List.headD_cons, if_neg hnext]
          exact hstore hadvance hbehind' hnext hrest (Nat.lt_of_succ_lt hfuel)
      simp only [if_neg hescape]
      by_cases hquote : quote = 0
      · subst hquote
        simp only [ne_eq, not_true_eq_false, if_false]
        split_ifs with hopens hblank
        · exact ih byte hadvance hbehind' hcurrent hrest hfuel
        · refine ⟨current, byte :: rest, ⟨hstate.looked, hbehind, hcurrent, hsuffix, ?_, rfl⟩, ?_⟩
          · simpa using hblank
          · simp [readAll, Reader.read, hescape, hopens, hblank]
        · exact hstore hstate hbehind hbyte hrest hfuel
      · simp only [ne_eq, hquote, not_false_eq_true, if_true]
        split_ifs with hcloses
        · exact ih 0 hadvance hbehind' hcurrent hrest hfuel
        · exact hstore hstate hbehind hbyte hrest hfuel

/-- The stored positions are those of the arguments, which end with a terminator. -/
def Stored (text : List UInt8) : List ℕ → List (List UInt8) → Prop :=
  List.Forall₂ fun start argument => 0 ∉ argument ∧ argument ++ [0] <+: text.drop start

theorem Stored.strings_eq {starts : List ℕ} {length : ℕ}
    {buffer : List UInt8} (hstored : Stored (buffer.take length) starts finished) :
    starts.map (fun start => cString (buffer.drop start)) = finished := by
  induction hstored with
  | nil => rfl
  | cons hargument _ ih =>
    obtain ⟨hnonzero, hends⟩ := hargument
    obtain ⟨more, hmore⟩ := hends.trans ((List.take_prefix _ _).drop _)
    rw [List.map_cons, ih, ← hmore, List.append_assoc, List.singleton_append,
      cString_append_zero hnonzero]

theorem Stored.snoc {starts : List ℕ} {argument : List UInt8}
    (hstored : Stored text starts finished) (hargument : 0 ∉ argument) :
    Stored (text ++ argument ++ [0]) (starts ++ [text.length]) (finished ++ [argument]) := by
  refine List.rel_append ?_ (.cons ⟨hargument, ?_⟩ .nil)
  · exact List.Forall₂.imp (fun start _ h =>
      ⟨h.1, h.2.trans (List.IsPrefix.drop ⟨argument ++ [0], by simp⟩ start)⟩) hstored
  · rw [List.append_assoc, List.drop_left]

/-- One argument fails where the reader does, or is stored behind the arguments before it. -/
theorem parseArgument_cases {capacity : ℕ} (hrest : 0 ∉ rest)
    (hstate : Holds rest text state) (hbehind : state.destination ≤ state.source)
    (hstored : Stored text state.arguments finished) (hroom : finished.length < capacity) :
    (parseArgument capacity state = .ok none ∧
      readAll ⟨finished, some [], 0, false⟩ rest = none) ∨
    ∃ next current after, parseArgument capacity state = .ok (some next) ∧
      Holds after (text ++ current ++ [0]) next ∧ after <:+ rest ∧
      (after = [] ∨ after.length < rest.length ∧ next.destination ≤ next.source) ∧
      Stored (text ++ current ++ [0]) next.arguments (finished ++ [current]) ∧
      readAll ⟨finished, some [], 0, false⟩ rest =
        readAll ⟨finished ++ [current], none, 0, false⟩ after := by
  have hlength := hstate.length_eq
  set opened : CommandLine := { state with arguments := state.arguments ++ [state.destination] }
    with hopened
  have hstart : state.start capacity = .ok opened := if_pos (hstored.length_eq ▸ hroom)
  have hholds : Holds rest (text ++ []) opened :=
    ⟨hstate.unread, hstate.written.trans (List.append_nil _).symm⟩
  have hscan := scanArgument_scans finished 0 hrest hholds hbehind List.not_mem_nil
    List.suffix_rfl hstate.rest_lt
  rw [parseArgument, hstart, ok_bind]
  generalize scanArgument state.buffer.length 0 opened = scanned at hscan
  match scanned, hscan with
  | .ok none, hall => exact .inl ⟨rfl, hall⟩
  | .ok (some next), ⟨current, after, hnext, hall⟩ =>
    obtain ⟨skipped, hskip, hholds, hseen, hsource, hdestination, harguments⟩ :=
      skipBlanks_eq hnext.holds hnext.holds.rest_lt
    have hshorter := length_dropWhile_blank hnext.stops
    have hbehind : skipped.destination ≤ skipped.source := by
      have := List.length_dropWhile_le isBlank after
      have := hnext.behind
      omega
    obtain ⟨buffer, hput, hterminated⟩ := hholds.put 0 (by omega) hbehind fun heq =>
      ⟨hshorter.resolve_right fun hlt => by have := hnext.behind; omega, rfl⟩
    refine .inr ⟨_, current, after.dropWhile isBlank, ?_, hterminated, ?_, ?_, ?_, ?_⟩
    · rw [ok_bind]
      dsimp only
      rw [hskip, ok_bind, hput]
      rfl
    · exact (List.dropWhile_suffix isBlank).trans hnext.suffix
    · refine hshorter.imp_right fun hlt => ⟨hlt.trans_le hnext.suffix.length_le, ?_⟩
      have := hnext.behind
      dsimp only
      omega
    · have hposition : state.destination = text.length := by
        rw [← hstate.written, List.length_take]
        omega
      rw [harguments, hnext.arguments_eq, hopened, hposition]
      exact hstored.snoc hnext.nonzero
    · exact hall.trans (Reader.readAll_finish hnext.stops)

theorem parseArguments_eq {capacity : ℕ} (hrest : 0 ∉ rest)
    (hstate : Holds rest text state) (hbehind : rest ≠ [] → state.destination ≤ state.source)
    (hfuel : rest.length < fuel) (hstored : Stored text state.arguments finished)
    (hcapacity : finished.length ≤ capacity) :
    ∃ result, parseArguments capacity fuel state = .ok result ∧
      result.map CommandLine.strings =
        (readAll ⟨finished, none, 0, false⟩ rest).filter (·.length ≤ capacity) := by
  induction fuel generalizing rest text state finished with
  | zero => omega
  | succ fuel ih =>
    have hfinished {state : CommandLine} (hstate : Holds [] text state)
        (hstored : Stored text state.arguments finished) :
        (some state).map CommandLine.strings =
          (readAll ⟨finished, none, 0, false⟩ []).filter (·.length ≤ capacity) := by
      rw [← hstate.written] at hstored
      rw [Option.map_some, CommandLine.strings, hstored.strings_eq]
      simp [readAll, Reader.arguments, Option.filter, hcapacity]
    rw [parseArguments, hstate.peek]
    cases rest with
    | nil => exact ⟨_, rfl, hfinished hstate.looked hstored⟩
    | cons first rest =>
      have hbehind := hbehind (List.cons_ne_nil _ _)
      have hfirst : first ≠ 0 := fun hzero => hrest (hzero ▸ List.mem_cons_self)
      obtain ⟨opened, hskip, hopened, -, hsource, hdestination, harguments⟩ :=
        skipBlanks_eq hstate.looked hstate.rest_lt
      have hlength := List.length_dropWhile_le isBlank (first :: rest)
      have hshorter := List.dropWhile_suffix isBlank (l := first :: rest)
      have hhead := List.head?_dropWhile_not isBlank (first :: rest)
      simp only [ok_bind, List.headD_cons, if_neg hfirst, CommandLine.looked] at hskip ⊢
      rw [hskip, ← Reader.readAll_dropWhile, ok_bind, hopened.peek]
      generalize List.dropWhile isBlank (first :: rest) = unread at *
      cases unread with
      | nil => exact ⟨_, rfl, hfinished hopened.looked (harguments ▸ hstored)⟩
      | cons byte unread =>
        have hblank : ¬isBlank byte := by simpa using hhead
        have hbyte : byte ≠ 0 := fun hzero => hrest (hshorter.mem (hzero ▸ List.mem_cons_self))
        have hcount : opened.arguments.length = finished.length :=
          (congrArg List.length harguments).trans hstored.length_eq
        have hbegins : readAll ⟨finished, none, 0, false⟩ (byte :: unread) =
            readAll ⟨finished, some [], 0, false⟩ (byte :: unread) :=
          congrArg (·.readAll unread) (Reader.read_start hblank)
        simp only [ok_bind, List.headD_cons, if_neg hbyte, hbegins]
        rw [show opened.looked.arguments.length = finished.length from hcount]
        split_ifs with hfull
        · refine ⟨none, rfl, ((Option.filter_eq_none_iff).mpr fun arguments hall => ?_).symm⟩
          have hmore := Reader.count_le_readAll hall
          simp [Reader.count] at hmore ⊢
          omega
        · have hunread : 0 ∉ byte :: unread := mt (hshorter.mem ·) hrest
          have hroom : finished.length < capacity := lt_of_le_of_ne hcapacity hfull
          have hbehind' : opened.destination ≤ opened.source := by
            simp only [CommandLine.looked] at hsource hdestination
            omega
          obtain ⟨hparse, hall⟩ | ⟨next, current, after, hparse, hnext, hafter, hshort, hstored,
              hall⟩ :=
            parseArgument_cases hunread hopened.looked hbehind' (harguments ▸ hstored) hroom
          · rw [hparse, hall]
            exact ⟨none, rfl, rfl⟩
          · rw [hparse, hall]
            refine ih (mt (hafter.mem ·) hunread) hnext
              (fun hmore => (hshort.resolve_left hmore).2) ?_ hstored (by simpa using hroom)
            obtain rfl | hlt := hshort <;> simp at * <;> omega

end Parsing

/-- The parser gives the arguments of the line, if there is room for them. -/
theorem facetShellParseCommand_eq (capacity : ℕ) {line : List UInt8} (hline : 0 ∉ line) :
    facetShellParseCommand capacity (line ++ [0]) =
      .ok ((tokens line).filter (·.length ≤ capacity)) := by
  have hstate : Holds line [] ⟨line ++ [0], 0, 0, 0, []⟩ := ⟨rfl, rfl⟩
  have hfuel : line.length < (line ++ [0]).length := by simp
  have hstored : Stored [] [] [] := .nil
  obtain ⟨result, hparse, heq⟩ :=
    parseArguments_eq hline hstate (fun _ => le_rfl) hfuel hstored (Nat.zero_le capacity)
  rw [facetShellParseCommand, hparse, ok_bind, heq]
  rfl

/-! ## Lines that spell arguments -/

/-- An argument with a backslash before every byte; the empty one is a pair of quotes. -/
def spelled (quote : UInt8) (argument : List UInt8) : List UInt8 :=
  if argument = [] then [quote, quote] else argument.flatMap ([backslash, ·])

def spelledLine (quote : UInt8) (blanks : List UInt8) (arguments : List (List UInt8)) :
    List UInt8 :=
  blanks.intercalate (arguments.map (spelled quote))

section Spelling

variable {quote : UInt8} {blanks : List UInt8}

theorem foldl_escaped (current argument : List UInt8) :
    (argument.flatMap ([backslash, ·])).foldl Reader.read ⟨finished, some current, 0, false⟩ =
      ⟨finished, some (current ++ argument), 0, false⟩ := by
  induction argument generalizing current with
  | nil => simp
  | cons byte argument ih =>
    have hread : [backslash, byte].foldl Reader.read ⟨finished, some current, 0, false⟩ =
        ⟨finished, some (current ++ [byte]), 0, false⟩ := rfl
    rw [List.flatMap_cons, List.foldl_append, hread, ih, List.append_assoc, List.singleton_append]

theorem foldl_spelled (hquote : isQuote quote) (argument : List UInt8) :
    (spelled quote argument).foldl Reader.read ⟨finished, none, 0, false⟩ =
      ⟨finished, some argument, 0, false⟩ := by
  cases argument with
  | nil =>
    obtain rfl | rfl : quote = 39 ∨ quote = 34 := by simpa [isQuote] using hquote
    all_goals rfl
  | cons byte argument => exact foldl_escaped [] (byte :: argument)

theorem spelledLine_cons_cons (first second : List UInt8) (arguments : List (List UInt8)) :
    spelledLine quote blanks (first :: second :: arguments) =
      spelled quote first ++ (blanks ++ spelledLine quote blanks (second :: arguments)) := rfl

/-- The arguments of a spelled line are the ones it spells. -/
theorem readAll_spelledLine (hquote : isQuote quote) (hsome : blanks ≠ [])
    (hblanks : ∀ byte ∈ blanks, isBlank byte) (arguments : List (List UInt8)) :
    readAll ⟨finished, none, 0, false⟩ (spelledLine quote blanks arguments) =
      some (finished ++ arguments) := by
  induction arguments generalizing finished with
  | nil => simp [spelledLine, readAll, Reader.arguments]
  | cons argument arguments ih =>
    cases arguments with
    | nil => simp [spelledLine, readAll, foldl_spelled hquote, Reader.arguments]
    | cons second arguments =>
      have hstops : ∀ byte ∈ (blanks ++ spelledLine quote blanks (second :: arguments)).head?,
          isBlank byte := by
        obtain ⟨byte, blanks, rfl⟩ := List.exists_cons_of_ne_nil hsome
        simpa using hblanks byte List.mem_cons_self
      rw [spelledLine_cons_cons, readAll, List.foldl_append, foldl_spelled hquote,
        ← readAll, Reader.readAll_finish hstops, List.dropWhile_append_of_pos hblanks,
        Reader.readAll_dropWhile, ih, List.append_assoc, List.singleton_append]

theorem zero_not_mem_spelled (hquote : isQuote quote) {argument : List UInt8}
    (hargument : 0 ∉ argument) : 0 ∉ spelled quote argument := by
  have hzero : 0 ≠ quote := by rintro rfl; exact absurd hquote (by decide)
  unfold spelled
  split_ifs
  · simpa using hzero
  · simpa [backslash] using hargument

theorem zero_not_mem_spelledLine (hquote : isQuote quote)
    (hblanks : ∀ byte ∈ blanks, isBlank byte) {arguments : List (List UInt8)}
    (harguments : ∀ argument ∈ arguments, 0 ∉ argument) :
    0 ∉ spelledLine quote blanks arguments := by
  induction arguments with
  | nil => exact List.not_mem_nil
  | cons argument arguments ih =>
    have hfirst := zero_not_mem_spelled hquote (harguments argument List.mem_cons_self)
    cases arguments with
    | nil => simpa [spelledLine] using hfirst
    | cons second arguments =>
      have hblank : 0 ∉ blanks := fun hzero => absurd (hblanks 0 hzero) (by decide)
      have hrest := ih fun other hother => harguments other (List.mem_cons_of_mem _ hother)
      rw [spelledLine_cons_cons]
      simp only [List.mem_append, not_or]
      exact ⟨hfirst, hblank, hrest⟩

end Spelling

/-- The parser never faults: it reads and writes the line up to its terminator, overwrites
only what it has read and stores no more arguments than there is room for.  It returns what
the reader makes of the line, and gives back any arguments from a line that spells them. -/
theorem facetShellParseCommand_correct (capacity : ℕ) :
    (∀ line : List UInt8, 0 ∉ line → facetShellParseCommand capacity (line ++ [0]) =
      .ok ((tokens line).filter (·.length ≤ capacity))) ∧
    ∀ (quote : UInt8) (blanks : List UInt8) (arguments : List (List UInt8)), isQuote quote →
      blanks ≠ [] → (∀ byte ∈ blanks, isBlank byte) → (∀ argument ∈ arguments, 0 ∉ argument) →
      arguments.length ≤ capacity →
      facetShellParseCommand capacity (spelledLine quote blanks arguments ++ [0]) =
        .ok (some arguments) := by
  refine ⟨fun line => facetShellParseCommand_eq capacity, ?_⟩
  intro quote blanks arguments hquote hsome hblanks hnonzero hcapacity
  have hline := zero_not_mem_spelledLine hquote hblanks hnonzero
  rw [facetShellParseCommand_eq capacity hline, tokens,
    readAll_spelledLine hquote hsome hblanks, List.nil_append]
  simp [Option.filter, hcapacity]

theorem facetShellParseCommand_empty_quote :
    facetShellParseCommand 2 (spelledLine 39 [32] [[], [34]] ++ [0]) = .ok (some [[], [34]]) :=
  (facetShellParseCommand_correct 2).2 39 [32] [[], [34]] (by decide) (by simp)
    (by simp [isBlank]) (by simp) (by simp)

end FacetOS.Shell
