import TenantStore.Service.Address
import TenantStore.Text.Blank

/-!
# The configuration of the service

The service is configured by named settings. A setting that is blank counts as not given; other
settings are taken as they are, blanks included. The database has no default.
-/

namespace TenantStore

/-- Why settings are refused. -/
inductive ConfigError where
  | noDatabase
  | badSocket (flaw : Text.NumeralError)
  | badConnections (flaw : Text.NumeralError)
  | badAddress
  deriving DecidableEq, Repr

/-- The wording of a refusal. -/
def ConfigError.message (e : ConfigError) : String :=
  "configuration error: " ++
    match e with
    | noDatabase => "DATABASE_URL environment variable must be set"
    | badSocket flaw => "PORT must be a valid u16: " ++ flaw.message
    | badConnections flaw => "DATABASE_MAX_CONNECTIONS must be a valid u32: " ++ flaw.message
    | badAddress => "invalid HOST:PORT combination: invalid socket address syntax"

/-- The configuration of the service. -/
structure Config where
  databaseUrl : String
  host : String
  /-- The number of the socket that the service listens on. -/
  socket : Nat
  /-- The most connections to the database at a time. -/
  maxConnections : Nat
  /-- Where traces are sent. -/
  traceEndpoint : Option String
  deriving DecidableEq, Repr

namespace Config

/-- The value of a setting that is not blank. -/
def given (settings : String → Option String) (name : String) : Option String :=
  (settings name).filter fun value => !Text.isBlank value

/-- A setting that is a whole number below a bound. -/
def number (settings : String → Option String) (name : String) (bound default : Nat) :
    Except Text.NumeralError Nat :=
  match given settings name with
  | some value => Text.readNat bound value
  | none => .ok default

/-- The configuration that settings give. Of several faults the first in order of the members
counts. -/
def ofSettings (settings : String → Option String) : Except ConfigError Config := do
  let some databaseUrl := given settings "DATABASE_URL" | throw .noDatabase
  let socket ← (number settings "PORT" (Nat.pow 2 16) 3000).mapError .badSocket
  let maxConnections ←
    (number settings "DATABASE_MAX_CONNECTIONS" (Nat.pow 2 32) 10).mapError .badConnections
  return {
    databaseUrl
    host := (given settings "HOST").getD "0.0.0.0"
    socket
    maxConnections
    traceEndpoint := given settings "OTEL_EXPORTER_OTLP_ENDPOINT" }

/-- The address that the service listens on. -/
def socketAddress (c : Config) : Except ConfigError SocketAddress :=
  match Address.read? c.host with
  | some address => .ok ⟨address, c.socket⟩
  | none => .error .badAddress

end Config
end TenantStore
