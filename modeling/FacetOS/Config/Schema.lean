import FacetOS.Config.Lexer

/-!
# Filling the configuration

`apply_value` stores one assignment in the record of the table it stands in.
Each key may be given once and only takes values of its own kind.
-/

namespace FacetOS.Config

/-! ## Kinds -/

variable (key : List UInt8)

def requireString (expected : String) : Value → Except FacetConfigDiagnostic (List UInt8)
  | .string _ _ text => .ok text
  | value => .error (diagnose .schema value.line value.column key expected)

def requireInteger (expected : String) : Value → Except FacetConfigDiagnostic ℤ
  | .integer _ _ number => .ok number
  | value => .error (diagnose .schema value.line value.column key expected)

def requireBoolean : Value → Except FacetConfigDiagnostic Bool
  | .boolean _ _ truth => .ok truth
  | value => .error (diagnose .schema value.line value.column key "expected boolean")

def requireArray : Value → Except FacetConfigDiagnostic (List Value)
  | .array _ _ items => .ok items
  | value => .error (diagnose .schema value.line value.column key "expected array")

def requireTable : Value → Except FacetConfigDiagnostic (List (TableKey × Value))
  | .table _ _ entries => .ok entries
  | value => .error (diagnose .schema value.line value.column key "expected inline table")

variable (value : Value)

def takeString : Except FacetConfigDiagnostic (List UInt8) :=
  requireString key "expected string" value

/-- An integer that must not be negative; the rest of the check is the caller's. -/
def takeNatural (line column : ℕ) (message : String) (bound : ℕ)
    (value : Value) : Except FacetConfigDiagnostic ℕ := do
  let number ← requireInteger key "expected non-negative integer" value
  if number < 0 ∨ (bound : ℤ) < number then .error (diagnose .schema line column key message)
  else .ok number.toNat

/-- One of a list of words. -/
def takeWord {α : Type} (words : List (List UInt8 × α)) (key : List UInt8) (message : String)
    (value : Value) (text : List UInt8) : Except FacetConfigDiagnostic α :=
  match words.lookup text with
  | some meaning => .ok meaning
  | none => .error (diagnose .schema value.line value.column key message)

/-- Store the value of a key that has not been given before. -/
def assignOnce {α : Type} (present : Option α) (duplicate : FacetConfigDiagnostic)
    (value : Except FacetConfigDiagnostic α) : Except FacetConfigDiagnostic (Option α) :=
  match present with
  | some _ => .error duplicate
  | none => value.map some

/-! ## Arrays and inline tables -/

def logLevels : List (List UInt8 × FacetConfigLogLevel) :=
  [(ascii "none", .none), (ascii "fatal", .fatal), (ascii "error", .error),
    (ascii "warning", .warning), (ascii "info", .info), (ascii "debug", .debug),
    (ascii "trace", .trace)]

def parseLogLevel : Except FacetConfigDiagnostic FacetConfigLogLevel := do
  let text ← requireString key "expected log-level string" value
  takeWord logLevels key "invalid log level" value text

def stringsFromArray : Except FacetConfigDiagnostic (List (List UInt8)) := do
  let items ← requireArray key value
  items.mapM (requireString key "expected string array")

def tableValue (entries : List (TableKey × Value)) (wanted : List UInt8) : Option Value :=
  (entries.find? (fun entry => entry.1.key == wanted)).map Prod.snd

/-- A sink use gives exactly a name and a level. -/
def sinkValues (item : Value) : Except FacetConfigDiagnostic (Value × Value) := do
  let entries ← requireTable (ascii "logging_sinks") item
  match tableValue entries (ascii "name"), tableValue entries (ascii "level") with
  | some name, some level =>
    if entries.length = 2 then .ok (name, level)
    else .error (diagnose .schema item.line item.column (ascii "logging_sinks")
      "sink use requires only name and level")
  | _, _ =>
    .error (diagnose .schema item.line item.column (ascii "logging_sinks")
      "sink use requires only name and level")

def domainSink (item : Value) : Except FacetConfigDiagnostic FacetConfigDomainSink := do
  let (name, level) ← sinkValues item
  let name ← requireString (ascii "name") "expected string" name
  let level ← parseLogLevel (ascii "level") level
  return { name, level }

def domainSinksFromArray : Except FacetConfigDiagnostic (List FacetConfigDomainSink) := do
  let items ← requireArray (ascii "logging_sinks") value
  items.mapM domainSink

def terminalViews : List (List UInt8 × FacetConfigTerminalView) :=
  [(ascii "native", .native), (ascii "posix", .posix)]

def takeView : Except FacetConfigDiagnostic FacetConfigTerminalView := do
  let text ← takeString key value
  takeWord terminalViews key "terminal view must be native or posix" value text

def terminalEntry (assignment : FacetConfigTerminalAssignment) (entry : TableKey × Value) :
    Except FacetConfigDiagnostic FacetConfigTerminalAssignment := do
  let key := entry.1.key
  let duplicate :=
    diagnose .duplicate entry.1.line entry.1.column key "duplicate terminal assignment key"
  if key = ascii "terminal" then
    return { assignment with
      reference := ← assignOnce assignment.reference duplicate (takeString key entry.2) }
  else if key = ascii "initial_process" then
    return { assignment with
      initialProcess := ← assignOnce assignment.initialProcess duplicate
        (takeString key entry.2) }
  else if key = ascii "device" then
    return { assignment with
      deviceName := ← assignOnce assignment.deviceName duplicate (takeString key entry.2) }
  else if key = ascii "run_as" then
    return { assignment with
      runAs := ← assignOnce assignment.runAs duplicate (takeString key entry.2) }
  else if key = ascii "view" then
    return { assignment with
      view := ← assignOnce assignment.view duplicate (takeView key entry.2) }
  else
    .error (diagnose .schema entry.1.line entry.1.column key "unknown terminal assignment key")

def terminalAssignment (item : Value) :
    Except FacetConfigDiagnostic FacetConfigTerminalAssignment := do
  let entries ← requireTable (ascii "terminals") item
  entries.foldlM terminalEntry {}

def domainTerminalsFromArray :
    Except FacetConfigDiagnostic (List FacetConfigTerminalAssignment) := do
  let items ← requireArray (ascii "terminals") value
  items.mapM terminalAssignment

/-- One key of a user, in a `[[users]]` table or an inline table.  The two only
differ in where they report an id that does not fit. -/
def userKey (user : FacetConfigUser) (key : List UInt8) (line column : ℕ) (value : Value)
    (idLine idColumn : ℕ) : Except FacetConfigDiagnostic FacetConfigUser := do
  let duplicate := diagnose .duplicate line column key "duplicate user key"
  let id := (takeNatural key idLine idColumn "uid and gid must fit in u32" (2 ^ 32 - 1) value).map
    Nat.toUInt32
  if key = ascii "name" then
    return { user with name := ← assignOnce user.name duplicate (takeString key value) }
  else if key = ascii "password_hash" then
    return { user with
      passwordHash := ← assignOnce user.passwordHash duplicate (takeString key value) }
  else if key = ascii "admin" then
    return { user with admin := ← assignOnce user.admin duplicate (requireBoolean key value) }
  else if key = ascii "native_shell" then
    return { user with
      nativeShell := ← assignOnce user.nativeShell duplicate (takeString key value) }
  else if key = ascii "posix_shell" then
    return { user with
      posixShell := ← assignOnce user.posixShell duplicate (takeString key value) }
  else if key = ascii "home_path" then
    return { user with homePath := ← assignOnce user.homePath duplicate (takeString key value) }
  else if key = ascii "uid" then
    return { user with uid := ← assignOnce user.uid duplicate id }
  else if key = ascii "gid" then
    return { user with gid := ← assignOnce user.gid duplicate id }
  else .error (diagnose .schema line column key "unknown user key")

def userFromTable (table : Value) : Except FacetConfigDiagnostic FacetConfigUser := do
  let entries ← requireTable (ascii "users") table
  entries.foldlM (fun user entry => userKey user entry.1.key entry.1.line entry.1.column entry.2
    entry.1.line entry.1.column) {}

def domainUsersFromArray : Except FacetConfigDiagnostic (List FacetConfigUser) := do
  let items ← requireArray (ascii "users") value
  items.mapM userFromTable

/-! ## The tables -/

def facetKey (config : FacetSystemConfig) (key : List UInt8) (line column : ℕ) (value : Value) :
    Except FacetConfigDiagnostic FacetSystemConfig := do
  if key = ascii "seat_initrd" then
    return { config with
      seatInitrd := ← assignOnce config.seatInitrd
        (diagnose .duplicate line column key "duplicate seat_initrd") (takeString key value) }
  else if key ≠ ascii "version" then
    .error (diagnose .schema line column key "unknown [facet] key")
  else if config.version ≠ 0 then
    .error (diagnose .duplicate line column key "duplicate version")
  else do
    let number ← requireInteger key "expected integer" value
    if number ≠ 1 then
      .error (diagnose .unsupportedVersion value.line value.column key
        "unsupported configuration version")
    else return { config with version := 1 }

def sinkKey (sink : FacetConfigLoggingSinkDefinition) (key : List UInt8) (line column : ℕ)
    (value : Value) : Except FacetConfigDiagnostic FacetConfigLoggingSinkDefinition := do
  let duplicate := diagnose .duplicate line column key "duplicate logging sink key"
  if key = ascii "name" then
    return { sink with name := ← assignOnce sink.name duplicate (takeString key value) }
  else if key = ascii "type" then
    return { sink with type := ← assignOnce sink.type duplicate (takeString key value) }
  else if key = ascii "required" then
    return { sink with
      required := ← assignOnce sink.required duplicate (requireBoolean key value) }
  else .error (diagnose .schema line column key "unknown logging sink key")

def takeSourceType (key : List UInt8) (line column : ℕ) (value : Value) :
    Except FacetConfigDiagnostic (List UInt8) := do
  let text ← takeString key value
  if text = ascii "local" then .ok text
  else .error (diagnose .schema line column key "authentication source type must be local")

def sourceKey (source : FacetConfigAuthenticationSource) (key : List UInt8) (line column : ℕ)
    (value : Value) : Except FacetConfigDiagnostic FacetConfigAuthenticationSource := do
  let duplicate := diagnose .duplicate line column key "duplicate authentication source key"
  if key = ascii "name" then
    return { source with name := ← assignOnce source.name duplicate (takeString key value) }
  else if key = ascii "provider_domain" then
    return { source with
      providerDomainId := ← assignOnce source.providerDomainId duplicate
        (takeNatural key value.line value.column "provider domain must be non-negative"
          (2 ^ 63 - 1) value) }
  else if key = ascii "type" then
    return { source with
      type := ← assignOnce source.type duplicate (takeSourceType key line column value) }
  else if key = ascii "required" then
    return { source with
      required := ← assignOnce source.required duplicate (requireBoolean key value) }
  else .error (diagnose .schema line column key "unknown authentication source key")

def seatTypes : List (List UInt8 × FacetConfigSeatType) :=
  [(ascii "serial", .serial), (ascii "local", .local)]

def takeSeatType (key : List UInt8) (value : Value) :
    Except FacetConfigDiagnostic FacetConfigSeatType := do
  let text ← takeString key value
  takeWord seatTypes key "seat type must be serial or local" value text

def seatKey (seat : FacetConfigSeatDefinition) (key : List UInt8) (line column : ℕ)
    (value : Value) : Except FacetConfigDiagnostic FacetConfigSeatDefinition := do
  let duplicate := diagnose .duplicate line column key "duplicate seat key"
  if key = ascii "name" then
    return { seat with name := ← assignOnce seat.name duplicate (takeString key value) }
  else if key = ascii "type" then
    return { seat with type := ← assignOnce seat.type duplicate (takeSeatType key value) }
  else if key = ascii "server" then
    return { seat with server := ← assignOnce seat.server duplicate (takeString key value) }
  else if key = ascii "terminals" then
    return { seat with
      terminals := ← assignOnce seat.terminals duplicate (stringsFromArray key value) }
  else .error (diagnose .schema line column key "unknown seat key")

def personalities : List (List UInt8 × FacetConfigPersonality) :=
  [(ascii "native", .native), (ascii "posix", .posix), (ascii "vm", .vm)]

def managerModes : List (List UInt8 × FacetConfigDomainManagerMode) :=
  [(ascii "none", .none), (ascii "local", .local), (ascii "parent", .parent)]

def takePersonality (key : List UInt8) (value : Value) :
    Except FacetConfigDiagnostic FacetConfigPersonality := do
  let text ← takeString key value
  takeWord personalities key "invalid domain personality" value text

def takeManagerMode (key : List UInt8) (value : Value) :
    Except FacetConfigDiagnostic FacetConfigDomainManagerMode := do
  let text ← takeString key value
  takeWord managerModes key "invalid domain manager mode" value text

def domainKey (domain : FacetConfigDomain) (key : List UInt8) (line column : ℕ)
    (value : Value) : Except FacetConfigDiagnostic FacetConfigDomain := do
  let duplicate := diagnose .duplicate line column key "duplicate domain key"
  if key = ascii "id" then
    return { domain with
      id := ← assignOnce domain.id duplicate
        (takeNatural key value.line value.column "domain id must be non-negative"
          (2 ^ 63 - 1) value) }
  else if key = ascii "name" then
    return { domain with name := ← assignOnce domain.name duplicate (takeString key value) }
  else if key = ascii "personality" then
    return { domain with
      personality := ← assignOnce domain.personality duplicate (takePersonality key value) }
  else if key = ascii "domain_manager" then
    return { domain with
      domainManager := ← assignOnce domain.domainManager duplicate (takeManagerMode key value) }
  else if key = ascii "logging_sinks" then
    return { domain with
      loggingSinks := ← assignOnce domain.loggingSinks duplicate (domainSinksFromArray value) }
  else if key = ascii "terminals" then
    return { domain with
      terminals := ← assignOnce domain.terminals duplicate (domainTerminalsFromArray value) }
  else if key = ascii "authentication_source" then
    return { domain with
      authenticationSource := ← assignOnce domain.authenticationSource duplicate
        (takeString key value) }
  else if key = ascii "pid1" then
    return { domain with pid1 := ← assignOnce domain.pid1 duplicate (takeString key value) }
  else if key = ascii "initrd" then
    return { domain with initrd := ← assignOnce domain.initrd duplicate (takeString key value) }
  else if key = ascii "users" then
    return { domain with
      users := ← assignOnce domain.users duplicate (domainUsersFromArray value) }
  else .error (diagnose .schema line column key "unknown domain key")

inductive SectionKind
  | none
  | facet
  | loggingSink
  | authenticationSource
  | user
  | seat
  | domain
  deriving DecidableEq, Repr

/-- Replace the record that the current table fills. -/
def updateAt {α : Type} [Inhabited α] (records : List α) (index : ℕ)
    (update : α → Except FacetConfigDiagnostic α) : Except FacetConfigDiagnostic (List α) :=
  (update (records.getD index default)).map (records.set index)

instance : Inhabited FacetConfigLoggingSinkDefinition := ⟨{}⟩
instance : Inhabited FacetConfigAuthenticationSource := ⟨{}⟩
instance : Inhabited FacetConfigUser := ⟨{}⟩
instance : Inhabited FacetConfigSeatDefinition := ⟨{}⟩
instance : Inhabited FacetConfigDomain := ⟨{}⟩

/-- `apply_value` after the entry has been counted. -/
def applyValue (sectionKind : SectionKind) (index : ℕ) (config : FacetSystemConfig)
    (key : List UInt8) (line column : ℕ) (value : Value) :
    Except FacetConfigDiagnostic FacetSystemConfig := do
  match sectionKind with
  | .facet => facetKey config key line column value
  | .loggingSink =>
    return { config with
      loggingSinks := ← updateAt config.loggingSinks index
        (fun sink => sinkKey sink key line column value) }
  | .authenticationSource =>
    return { config with
      authenticationSources := ← updateAt config.authenticationSources index
        (fun source => sourceKey source key line column value) }
  | .user =>
    return { config with
      users := ← updateAt config.users index
        (fun user => userKey user key line column value value.line value.column) }
  | .seat =>
    return { config with
      seats := ← updateAt config.seats index
        (fun seat => seatKey seat key line column value) }
  | .domain =>
    return { config with
      domains := ← updateAt config.domains index
        (fun domain => domainKey domain key line column value) }
  | .none =>
    .error (diagnose .schema line column key "assignment appears before a table header")

end FacetOS.Config
