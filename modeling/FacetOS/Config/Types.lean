import FacetOS.Core.Text

/-!
# The parsed configuration

The records that the configuration parser fills and the boot code reads.  The
source keeps a bit mask of the keys it has seen next to each record; here a key
that has not been seen is a field without a value, so that the mask and the
fields cannot disagree.
-/

namespace FacetOS.Config

inductive FacetConfigPersonality
  | native
  | posix
  | vm
  deriving DecidableEq, Repr

inductive FacetConfigDomainManagerMode
  | none
  | local
  | parent
  deriving DecidableEq, Repr

inductive FacetConfigLogLevel
  | none
  | fatal
  | error
  | warning
  | info
  | debug
  | trace
  deriving DecidableEq, Repr

inductive FacetConfigSeatType
  | serial
  | local
  deriving DecidableEq, Repr

inductive FacetConfigTerminalView
  | native
  | posix
  deriving DecidableEq, Repr

structure FacetConfigLoggingSinkDefinition where
  name : Option (List UInt8) := none
  type : Option (List UInt8) := none
  required : Option Bool := none
  deriving DecidableEq

structure FacetConfigSeatDefinition where
  name : Option (List UInt8) := none
  server : Option (List UInt8) := none
  type : Option FacetConfigSeatType := none
  terminals : Option (List (List UInt8)) := none
  deriving DecidableEq

/-- The provider index is filled in by validation. -/
structure FacetConfigAuthenticationSource where
  name : Option (List UInt8) := none
  providerDomainId : Option ℕ := none
  providerDomainIndex : ℕ := 0
  type : Option (List UInt8) := none
  required : Option Bool := none
  deriving DecidableEq

structure FacetConfigUser where
  name : Option (List UInt8) := none
  passwordHash : Option (List UInt8) := none
  admin : Option Bool := none
  uid : Option UInt32 := none
  gid : Option UInt32 := none
  homePath : Option (List UInt8) := none
  nativeShell : Option (List UInt8) := none
  posixShell : Option (List UInt8) := none
  deriving DecidableEq

structure FacetConfigDomainSink where
  name : List UInt8
  level : FacetConfigLogLevel
  sinkDefinitionIndex : ℕ := 0
  deriving DecidableEq

/-- The seat and terminal indices are filled in by validation. -/
structure FacetConfigTerminalAssignment where
  reference : Option (List UInt8) := none
  seatIndex : ℕ := 0
  terminalIndex : ℕ := 0
  view : Option FacetConfigTerminalView := none
  initialProcess : Option (List UInt8) := none
  deviceName : Option (List UInt8) := none
  runAs : Option (List UInt8) := none
  deriving DecidableEq

/-- A key that takes an array may be missing, which is not the empty array. -/
structure FacetConfigDomain where
  id : Option ℕ := none
  name : Option (List UInt8) := none
  personality : Option FacetConfigPersonality := none
  domainManager : Option FacetConfigDomainManagerMode := none
  authenticationSource : Option (List UInt8) := none
  authenticationSourceIndex : ℕ := 0
  pid1 : Option (List UInt8) := none
  initrd : Option (List UInt8) := none
  users : Option (List FacetConfigUser) := none
  loggingSinks : Option (List FacetConfigDomainSink) := none
  terminals : Option (List FacetConfigTerminalAssignment) := none
  deriving DecidableEq

structure FacetSystemConfig where
  version : ℕ := 0
  seatInitrd : Option (List UInt8) := none
  loggingSinks : List FacetConfigLoggingSinkDefinition := []
  authenticationSources : List FacetConfigAuthenticationSource := []
  users : List FacetConfigUser := []
  seats : List FacetConfigSeatDefinition := []
  domains : List FacetConfigDomain := []
  rootIndex : ℕ := 0
  deriving DecidableEq

end FacetOS.Config
