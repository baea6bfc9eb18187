import FacetOS.Config.Schema
import FacetOS.Config.Validate

/-!
# Parsing the configuration

The parser reads table headers and assignments line by line.  A header opens a
table, an assignment fills the table that was opened last, and what has been
filled is validated at the end of the text.
-/

namespace FacetOS.Config

open Scanner

/-! ## The encoding -/

/-- Check the continuation bytes; a wrong one is reported by its offset. -/
def utf8Tail : ℕ → ℕ → ℕ → List UInt8 → Except ℕ (ℕ × List UInt8)
  | 0, _, value, rest => .ok (value, rest)
  | _ + 1, offset, _, [] => .error offset
  | needed + 1, offset, value, next :: rest =>
    if next.toNat / 64 = 2 then
      utf8Tail needed (offset + 1) (value * 64 + next.toNat % 64) rest
    else .error offset

/-- The offset of the first byte that is not UTF-8; `fuel` is the length of the
text. -/
def utf8Scan : ℕ → ℕ → List UInt8 → Option ℕ
  | 0, _, _ => none
  | _ + 1, _, [] => none
  | fuel + 1, offset, first :: rest =>
    if first.toNat < 0x80 then utf8Scan fuel (offset + 1) rest
    else
      match utf8Lead first.toNat with
      | none => some offset
      | some (needed, value) =>
        if rest.length < needed then some offset
        else
          match utf8Tail needed (offset + 1) value rest with
          | .error bad => some bad
          | .ok (value, rest) =>
            if utf8Excluded needed value then some offset
            else utf8Scan fuel (offset + 1 + needed) rest

def utf8Validate (data : List UInt8) : Option ℕ :=
  utf8Scan data.length 0 data

/-! ## Tables and assignments -/

/-- What the parser knows besides its cursor. -/
structure Parser where
  sectionKind : SectionKind := .none
  sectionIndex : ℕ := 0
  facetSeen : Bool := false
  config : FacetSystemConfig := {}

/-- The name between the brackets and where it stands. -/
def headerName : Lexer (Bool × TableKey) := do
  let _ ← take
  let c ← current
  let array := c == some (byte '[')
  skipBytes (if array then 1 else 0)
  skipSpaceAndComments false
  let start ← get
  let name ← parseKey
  skipSpaceAndComments false
  let close ← take
  refuse (close ≠ some (byte ']'))
    (failAt .syntaxError start.line start.column (ascii "table") "malformed table header")
  let c ← current
  skipBytes (if array then 1 else 0)
  refuse (array ∧ c ≠ some (byte ']'))
    (failAt .syntaxError start.line start.column (ascii "table") "malformed table header")
  return (array, ⟨name, start.line, start.column⟩)

/-- Add an empty record to an array of tables. -/
def growArray {α : Type} [Inhabited α] (records : List α) : Lexer (List α) := do
  refuse (facetConfigMaxArrayElements ≤ records.length)
    (fail .limit "configuration" "configuration array exceeds limit")
  return records ++ [default]

variable (parser : Parser)

/-- The table that a header opens. -/
def openTable (array : Bool) (name : TableKey) : Lexer Parser := do
  let config := parser.config
  if array = false ∧ name.key = ascii "facet" then do
    refuse (parser.facetSeen = true)
      (failAt .duplicate name.line name.column (ascii "facet") "duplicate [facet] table")
    return { parser with facetSeen := true, sectionKind := .facet }
  else if array = true ∧ name.key = ascii "logging_sinks" then do
    let loggingSinks ← growArray config.loggingSinks
    return { parser with
      config := { config with loggingSinks }
      sectionKind := .loggingSink
      sectionIndex := config.loggingSinks.length }
  else if array = true ∧ name.key = ascii "authentication_sources" then do
    let authenticationSources ← growArray config.authenticationSources
    return { parser with
      config := { config with authenticationSources }
      sectionKind := .authenticationSource
      sectionIndex := config.authenticationSources.length }
  else if array = true ∧ name.key = ascii "users" then do
    let users ← growArray config.users
    return { parser with
      config := { config with users }
      sectionKind := .user
      sectionIndex := config.users.length }
  else if array = true ∧ name.key = ascii "seats" then do
    let seats ← growArray config.seats
    return { parser with
      config := { config with seats }
      sectionKind := .seat
      sectionIndex := config.seats.length }
  else if array = true ∧ name.key = ascii "domains" then do
    let domains ← growArray config.domains
    return { parser with
      config := { config with domains }
      sectionKind := .domain
      sectionIndex := config.domains.length }
  else failAt .schema name.line name.column name.key "unknown configuration table"

def parseHeader : Lexer Parser := do
  let (array, name) ← headerName
  refuse (parser.facetSeen = false ∧ (array = true ∨ name.key ≠ ascii "facet"))
    (failAt .schema name.line name.column (ascii "facet") "[facet] must be the first table")
  consumeEntry name.line name.column name.key
  openTable parser array name

def parseAssignment : Lexer Parser := do
  let start ← get
  let key ← parseKey
  skipSpaceAndComments false
  let sign ← take
  refuse (sign ≠ some (byte '='))
    (failAt .syntaxError start.line start.column (ascii "assignment") "expected '='")
  skipSpaceAndComments false
  let value ← parseValue (facetConfigMaxDepth + 1)
  consumeEntry start.line start.column key
  let config ← applyValue parser.sectionKind parser.sectionIndex parser.config key start.line
    start.column value
  return { parser with config }

/-- The rest of a line, and the blank lines behind it.  The source looks for a
comment twice; the first time has taken it. -/
def finishLine : Lexer Unit := do
  skipSpaceAndComments false
  let c ← current
  refuse (c ≠ none ∧ c ≠ some (byte '\n'))
    (fail .syntaxError "line" "unexpected data after value or table header")
  skipSpaceAndComments true

/-- One header or assignment. -/
def parseItem : Lexer Parser := do
  let c ← current
  if c = some (byte '[') then parseHeader parser else parseAssignment parser

def parseLine : Lexer Parser := do
  let parser ← parseItem parser
  finishLine
  return parser

/-- The loop of `facet_config_parse`; `fuel` is more than the length of the
text, of which every round takes some. -/
def parseLines : ℕ → Parser → Lexer Parser
  | 0, _ => failAt .none 0 0 [] ""
  | fuel + 1, parser => do
      let c ← current
      if c = none then return parser
      else do
        let parser ← parseLine parser
        parseLines fuel parser

/-! ## The whole text -/

def startCursor (data : List UInt8) : Cursor := ⟨data, 1, 1, 0⟩

/-- All tables of the text, before validation. -/
def parseTables : Lexer Parser := do
  skipSpaceAndComments true
  let cursor ← get
  parseLines (cursor.rest.length + 1) {}

def facetConfigParse (data : List UInt8) : Except FacetConfigDiagnostic FacetSystemConfig :=
  if facetConfigMaxBytes < data.length then
    .error (diagnose .limit 1 1 (ascii "file") "configuration exceeds 1 MiB limit")
  else
    match utf8Validate data with
    | some bad =>
      let cursor := Cursor.step^[bad] (startCursor data)
      .error (diagnose .utf8 cursor.line cursor.column (ascii "file")
        "configuration is not valid UTF-8")
    | none => do
        let (parser, _) ← parseTables (startCursor data)
        validateRequired parser.facetSeen parser.config

/-- The encoding of a text. -/
def utf8Text (text : String) : List UInt8 := text.toByteArray.data.toList

/-- The text that `facet_config_make_fallback` parses. -/
def fallback : List UInt8 :=
  ["[facet]\n",
    "version = 1\n",
    "seat_initrd = \"dominit0.initrd\"\n",
    "[[logging_sinks]]\n",
    "name = \"bochs-debug\"\n",
    "type = \"platform.x86.bochs-debug\"\n",
    "required = true\n",
    "[[authentication_sources]]\n",
    "name = \"system\"\n",
    "provider_domain = 0\n",
    "type = \"local\"\n",
    "required = true\n",
    "[[users]]\n",
    "name = \"root\"\n",
    "password_hash = \"$5$facet$j7FgoXidvJl10CTaW0nguGP3ZnvKnqS3/IHmDVliPQ9\"\n",
    "admin = true\n",
    "uid = 0\n",
    "gid = 0\n",
    "home_path = \"/root\"\n",
    "posix_shell = \"/bin/sh\"\n",
    "[[users]]\n",
    "name = \"user\"\n",
    "password_hash = \"$5$facet$j7FgoXidvJl10CTaW0nguGP3ZnvKnqS3/IHmDVliPQ9\"\n",
    "admin = false\n",
    "uid = 1000\n",
    "gid = 1000\n",
    "home_path = \"/home/user\"\n",
    "posix_shell = \"/bin/sh\"\n",
    "[[seats]]\n",
    "name = \"seat0\"\n",
    "type = \"serial\"\n",
    "server = \"/FacetOS/seat-server-serial\"\n",
    "terminals = [\"ttyS0\"]\n",
    "[[seats]]\n",
    "name = \"seat1\"\n",
    "type = \"local\"\n",
    "server = \"/FacetOS/seat-server-pc-console\"\n",
    "terminals = [\"tty1\", \"tty2\", \"tty3\", \"tty4\", \"tty5\"]\n",
    "[[domains]]\n",
    "id = 0\n",
    "name = \"system\"\n",
    "personality = \"native\"\n",
    "domain_manager = \"local\"\n",
    "initrd = \"system.initrd\"\n",
    "authentication_source = \"system\"\n",
    "logging_sinks = [\x7b name = \"bochs-debug\", level = \"debug\" \x7d]\n",
    "terminals = [\x7b terminal = \"seat0.ttyS0\", view = \"native\", ",
    "initial_process = \"/FacetOS/FacetLogin\" \x7d,",
    "\x7b terminal = \"seat1.tty1\", view = \"native\", ",
    "initial_process = \"/FacetOS/FacetLogin\" \x7d,",
    "\x7b terminal = \"seat1.tty2\", view = \"posix\", ",
    "initial_process = \"/bin/login\" \x7d]\n",
    "[[domains]]\n",
    "id = 1\n",
    "name = \"posix\"\n",
    "personality = \"posix\"\n",
    "domain_manager = \"local\"\n",
    "pid1 = \"/sbin/init\"\n",
    "initrd = \"child.initrd\"\n",
    "authentication_source = \"system\"\n",
    "logging_sinks = [\x7b name = \"bochs-debug\", level = \"info\" \x7d]\n",
    "terminals = [\x7b terminal = \"seat1.tty3\", device = \"tty3\" \x7d]\n"].flatMap utf8Text

end FacetOS.Config
