import FacetOS.Config.Types
import FacetOS.Core.Scanner

/-!
# Reading configuration text

The tokens and values of the configuration language: comments, keys, quoted
strings with escapes, integers, booleans, arrays and inline tables.  Everything
that is read advances a cursor, which knows the line and column for diagnostics
and counts the entries read so far.  Allocation is taken to succeed.
-/

namespace FacetOS.Config

open Scanner

/-! ## Diagnostics -/

inductive FacetConfigDiagnosticCategory
  | none
  | syntaxError
  | utf8
  | limit
  | unsupportedVersion
  | schema
  | duplicate
  | unresolvedReference
  deriving DecidableEq, Repr

structure FacetConfigDiagnostic where
  category : FacetConfigDiagnosticCategory
  line : ℕ
  column : ℕ
  context : List UInt8
  message : List UInt8
  deriving DecidableEq

def facetConfigMaxBytes : ℕ := 1024 * 1024
def facetConfigMaxDepth : ℕ := 16
def facetConfigMaxEntries : ℕ := 4096
def facetConfigMaxStringBytes : ℕ := 64 * 1024
def facetConfigMaxArrayElements : ℕ := 4096

variable (category : FacetConfigDiagnosticCategory)

/-- The context is cut to fit the 96 bytes that the record has for it. -/
def diagnose (line column : ℕ) (context : List UInt8) (message : String) : FacetConfigDiagnostic :=
  ⟨category, line, column, context.take 95, ascii message⟩

def byte (c : Char) : UInt8 := c.toNat.toUInt8

/-! ## The cursor -/

structure Cursor where
  rest : List UInt8
  line : ℕ
  column : ℕ
  entryCount : ℕ
  deriving DecidableEq

abbrev Lexer := StateT Cursor (Except FacetConfigDiagnostic)

/-- How much text is left. -/
def Cursor.size (cursor : Cursor) : ℕ := cursor.rest.length

def failAt {α : Type} (line column : ℕ) (context : List UInt8) (message : String) : Lexer α :=
  throw (diagnose category line column context message)

/-- Fail at the cursor. -/
def fail {α : Type} (context message : String) : Lexer α := do
  let cursor ← get
  failAt category cursor.line cursor.column (ascii context) message

/-- Fail if the condition holds. -/
def refuse (condition : Prop) [Decidable condition] (failure : Lexer Unit) : Lexer Unit :=
  if condition then failure else pure ()

def countEntry : Lexer Unit :=
  modify (fun cursor => { cursor with entryCount := cursor.entryCount + 1 })

def consumeEntry (line column : ℕ) (context : List UInt8) : Lexer Unit := do
  let cursor ← get
  refuse (facetConfigMaxEntries ≤ cursor.entryCount)
    (failAt .limit line column context "configuration has too many entries")
  countEntry

def current : Lexer (Option UInt8) := do
  let cursor ← get
  return cursor.rest.head?

/-- The cursor behind its first byte. -/
def Cursor.step (cursor : Cursor) : Cursor :=
  match cursor.rest with
  | [] => cursor
  | first :: rest =>
    if first = byte '\n' then { cursor with rest, line := cursor.line + 1, column := 1 }
    else { cursor with rest, column := cursor.column + 1 }

def take : Lexer (Option UInt8) := do
  let cursor ← get
  set cursor.step
  return cursor.rest.head?

def skipBytes (count : ℕ) : Lexer Unit :=
  modify (Cursor.step^[count])

/-- The number of bytes that `skip_space_and_comments` takes; `comment` tells
whether it is inside a comment. -/
def blankLength (allowNewline : Bool) : Bool → List UInt8 → ℕ
  | _, [] => 0
  | true, first :: rest =>
    if first = byte '\n' then
      if allowNewline then 1 + blankLength allowNewline false rest else 0
    else 1 + blankLength allowNewline true rest
  | false, first :: rest =>
    if first = byte ' ' ∨ first = byte '\t' ∨ first = byte '\r'
        ∨ (allowNewline ∧ first = byte '\n') then 1 + blankLength allowNewline false rest
    else if first = byte '#' then 1 + blankLength allowNewline true rest
    else 0

def skipSpaceAndComments (allowNewline : Bool) : Lexer Unit := do
  let cursor ← get
  skipBytes (blankLength allowNewline false cursor.rest)

/-! ## Strings and keys -/

def hexDigit (c : Option UInt8) : Option ℕ := do
  let digit ← c
  if byte '0' ≤ digit ∧ digit ≤ byte '9' then some (digit - byte '0').toNat
  else if byte 'a' ≤ digit ∧ digit ≤ byte 'f' then some ((digit - byte 'a').toNat + 10)
  else if byte 'A' ≤ digit ∧ digit ≤ byte 'F' then some ((digit - byte 'A').toNat + 10)
  else none

/-- The digits of a Unicode escape; eight of them fill the 32 bits of a scalar. -/
def hexScalar : ℕ → ℕ → Lexer ℕ
  | 0, scalar => pure scalar
  | digits + 1, scalar => do
      let c ← take
      match hexDigit c with
      | none => fail .syntaxError "string" "invalid Unicode escape"
      | some digit => hexScalar digits (scalar * 16 + digit)

def simpleEscape (c : UInt8) : Option ℕ :=
  if c = byte 'b' then some 8
  else if c = byte 't' then some 9
  else if c = byte 'n' then some 10
  else if c = byte 'f' then some 12
  else if c = byte 'r' then some 13
  else if c = byte '"' then some (byte '"').toNat
  else if c = byte '\\' then some (byte '\\').toNat
  else none

/-- The scalar behind a backslash. -/
def parseEscape : Lexer ℕ := do
  let c ← take
  match c with
  | none => fail .syntaxError "string" "invalid string escape"
  | some c =>
    if c = byte 'u' then hexScalar 4 0
    else if c = byte 'U' then hexScalar 8 0
    else
      match simpleEscape c with
      | none => fail .syntaxError "string" "invalid string escape"
      | some scalar => pure scalar

def utf8Bytes (scalar : ℕ) : List UInt8 :=
  if scalar ≤ 0x7f then [scalar.toUInt8]
  else if scalar ≤ 0x7ff then [(0xc0 + scalar / 64).toUInt8, (0x80 + scalar % 64).toUInt8]
  else if scalar ≤ 0xffff then
    [(0xe0 + scalar / 4096).toUInt8, (0x80 + scalar / 64 % 64).toUInt8,
      (0x80 + scalar % 64).toUInt8]
  else
    [(0xf0 + scalar / 262144).toUInt8, (0x80 + scalar / 4096 % 64).toUInt8,
      (0x80 + scalar / 64 % 64).toUInt8, (0x80 + scalar % 64).toUInt8]

def appendUtf8 (buffer : List UInt8) (scalar : ℕ) : Lexer (List UInt8) := do
  refuse (0x10ffff < scalar ∨ (0xd800 ≤ scalar ∧ scalar ≤ 0xdfff))
    (fail .syntaxError "string" "invalid Unicode scalar escape")
  refuse (facetConfigMaxStringBytes - (utf8Bytes scalar).length < buffer.length)
    (fail .limit "string" "string exceeds configured limit")
  return buffer ++ utf8Bytes scalar

def appendRawByte (buffer : List UInt8) (raw : UInt8) : Lexer (List UInt8) := do
  refuse (facetConfigMaxStringBytes ≤ buffer.length)
    (fail .limit "string" "string exceeds configured limit")
  return buffer ++ [raw]

/-- One character of a quoted string, which has been taken already. -/
def quotedCharacter (quote c : UInt8) (buffer : List UInt8) : Lexer (List UInt8) := do
  refuse (c = byte '\n' ∨ c = byte '\r')
    (fail .syntaxError "string" "multiline strings are not supported")
  if quote = byte '"' ∧ c = byte '\\' then do
    let scalar ← parseEscape
    refuse (scalar = 0) (fail .schema "string" "NUL is not permitted in configuration strings")
    appendUtf8 buffer scalar
  else do
    refuse (c = 0) (fail .schema "string" "NUL is not permitted in configuration strings")
    refuse ((c < 0x20 ∧ c ≠ byte '\t') ∨ c = 0x7f)
      (fail .syntaxError "string" "unescaped control character in string")
    appendRawByte buffer c

/-- The loop of `parse_quoted_string`; `fuel` is the length of the text, of
which every round takes some. -/
def quotedLoop (quote : UInt8) : ℕ → List UInt8 → Lexer (List UInt8)
  | 0, buffer => pure buffer
  | fuel + 1, buffer => do
      let c ← current
      match c with
      | none => pure buffer
      | some c =>
        if c = quote then pure buffer
        else do
          let _ ← take
          let buffer ← quotedCharacter quote c buffer
          quotedLoop quote fuel buffer

/-- `parse_quoted_string` in front of a quote. -/
def parseQuotedString (quote : UInt8) : Lexer (List UInt8) := do
  let _ ← take
  let cursor ← get
  let buffer ← quotedLoop quote cursor.rest.length []
  let close ← take
  refuse (close ≠ some quote) (fail .syntaxError "string" "unterminated string")
  return buffer

def bareKeyCharacter (c : UInt8) : Bool :=
  (byte 'a' ≤ c ∧ c ≤ byte 'z') ∨ (byte 'A' ≤ c ∧ c ≤ byte 'Z')
    ∨ (byte '0' ≤ c ∧ c ≤ byte '9') ∨ c = byte '_' ∨ c = byte '-'

def parseBareKey : Lexer (List UInt8) := do
  let cursor ← get
  let key := cursor.rest.takeWhile bareKeyCharacter
  skipBytes key.length
  refuse (key = []) (fail .syntaxError "key" "expected a key")
  refuse (facetConfigMaxStringBytes < key.length)
    (fail .limit "string" "string exceeds configured limit")
  return key

def parseKey : Lexer (List UInt8) := do
  let c ← current
  if c = some (byte '"') then parseQuotedString (byte '"')
  else if c = some (byte '\'') then parseQuotedString (byte '\'')
  else parseBareKey

/-! ## Values -/

/-- A key of an inline table and where it stands. -/
structure TableKey where
  key : List UInt8
  line : ℕ
  column : ℕ
  deriving DecidableEq

inductive Value
  | string (line column : ℕ) (text : List UInt8)
  | integer (line column : ℕ) (number : ℤ)
  | boolean (line column : ℕ) (truth : Bool)
  | array (line column : ℕ) (items : List Value)
  | table (line column : ℕ) (entries : List (TableKey × Value))

def Value.line : Value → ℕ
  | .string line _ _ | .integer line _ _ | .boolean line _ _ | .array line _ _
  | .table line _ _ => line

def Value.column : Value → ℕ
  | .string _ column _ | .integer _ column _ | .boolean _ column _ | .array _ column _
  | .table _ column _ => column

def isDigit (c : UInt8) : Bool := byte '0' ≤ c ∧ c ≤ byte '9'

/-- The digits of an integer; `fuel` is the length of the text. -/
def digitLoop (limit : ℕ) : ℕ → ℕ → Lexer ℕ
  | 0, magnitude => pure magnitude
  | fuel + 1, magnitude => do
      let c ← current
      match c.filter isDigit with
      | none => pure magnitude
      | some c => do
          let _ ← take
          let digit := (c - byte '0').toNat
          refuse ((limit - digit) / 10 < magnitude)
            (fail .syntaxError "integer" "signed integer overflow")
          digitLoop limit fuel (magnitude * 10 + digit)

/-- An optional sign; the answer tells whether it is a minus. -/
def parseSign : Lexer Bool := do
  let c ← current
  if c = some (byte '+') ∨ c = some (byte '-') then do
    let sign ← take
    return sign == some (byte '-')
  else return false

def parseInteger : Lexer ℤ := do
  let negative ← parseSign
  let start ← get
  let limit := if negative then 2 ^ 63 else 2 ^ 63 - 1
  let magnitude ← digitLoop limit start.rest.length 0
  let after ← get
  refuse (after.rest.length = start.rest.length) (fail .syntaxError "value" "expected a value")
  refuse (1 < start.rest.length - after.rest.length ∧ start.rest.head? = some (byte '0'))
    (fail .syntaxError "integer" "leading zero is not permitted")
  return if negative then -(magnitude : ℤ) else magnitude

variable (item : Lexer Value)

/-- The items of an array up to the closing bracket; `room` counts the items
that may still be added. -/
def arrayLoop : ℕ → List Value → Lexer (List Value)
  | 0, _ => do
      let _ ← item
      fail .limit "array" "array exceeds configured element limit"
  | room + 1, items => do
      let value ← item
      skipSpaceAndComments true
      let separator ← take
      if separator = some (byte ']') then return items ++ [value]
      else do
        refuse (separator ≠ some (byte ',')) (fail .syntaxError "array" "expected ',' or ']'")
        skipSpaceAndComments true
        let c ← current
        if c = some (byte ']') then do
          let _ ← take
          return items ++ [value]
        else arrayLoop room (items ++ [value])

def parseArray : Lexer (List Value) := do
  let _ ← take
  skipSpaceAndComments true
  let c ← current
  if c = some (byte ']') then do
    let _ ← take
    return []
  else arrayLoop item facetConfigMaxArrayElements []

/-- One `key = value` of an inline table. -/
def parseTableEntry : Lexer (TableKey × Value) := do
  let start ← get
  consumeEntry start.line start.column (ascii "inline table")
  let key ← parseKey
  skipSpaceAndComments false
  let sign ← take
  refuse (sign ≠ some (byte '=')) (fail .syntaxError "inline table" "expected '='")
  skipSpaceAndComments false
  let value ← item
  return (⟨key, start.line, start.column⟩, value)

def tableLoop : ℕ → List (TableKey × Value) → Lexer (List (TableKey × Value))
  | 0, _ => do
      let _ ← parseTableEntry item
      fail .limit "inline table" "inline table exceeds configured element limit"
  | room + 1, entries => do
      let entry ← parseTableEntry item
      refuse (∃ other ∈ entries, other.1.key = entry.1.key)
        (failAt .duplicate entry.1.line entry.1.column entry.1.key "duplicate inline-table key")
      skipSpaceAndComments false
      let separator ← take
      if separator = some (byte '}') then return entries ++ [entry]
      else do
        refuse (separator ≠ some (byte ','))
          (fail .syntaxError "inline table" "expected ',' or '\x7d'")
        skipSpaceAndComments false
        tableLoop room (entries ++ [entry])

def parseInlineTable : Lexer (List (TableKey × Value)) := do
  let _ ← take
  skipSpaceAndComments false
  let c ← current
  if c = some (byte '}') then do
    let _ ← take
    return []
  else tableLoop item facetConfigMaxArrayElements []

/-- A value that may nest `levels` deep, itself included. -/
def parseValue : ℕ → Lexer Value
  | 0 => fail .limit "value" "nesting exceeds configured limit"
  | levels + 1 => do
      let start ← get
      let c := start.rest.head?
      if c = some (byte '"') then
        Value.string start.line start.column <$> parseQuotedString (byte '"')
      else if c = some (byte '\'') then
        Value.string start.line start.column <$> parseQuotedString (byte '\'')
      else if c = some (byte '[') then
        Value.array start.line start.column <$> parseArray (parseValue levels)
      else if c = some (byte '{') then
        Value.table start.line start.column <$> parseInlineTable (parseValue levels)
      else if ascii "true" <+: start.rest then do
        skipBytes 4
        return .boolean start.line start.column true
      else if ascii "false" <+: start.rest then do
        skipBytes 5
        return .boolean start.line start.column false
      else Value.integer start.line start.column <$> parseInteger

end FacetOS.Config
