import FishMarket.Failure

/-! # Settings

The service is set up by six named variables. Only the address of the database has to be given; the
others have defaults. Numbers are read strictly, and a fault names its variable and the reason.
-/

namespace FishMarket

/-- The settings of the service. -/
structure Settings where
  databaseUrl : String
  /-- Where the shared cache is; without one the service keeps its own. -/
  redisUrl? : Option String
  bindAddress : String
  databaseMaxConnections : Nat
  cacheTtlSeconds : Nat
  reconcileIntervalSeconds : Nat
deriving DecidableEq, Repr

namespace Settings

/-- The names of the variables that are read. -/
def variableNames : List String :=
  ["DATABASE_URL", "REDIS_URL", "BIND_ADDR", "DATABASE_MAX_CONNECTIONS", "CACHE_TTL_SECS",
    "RECONCILE_INTERVAL_SECS"]

/-- The greatest unsigned integer of 32 bits. -/
def maxNat32 : Int := 4294967295

/-- The greatest unsigned integer of 64 bits. -/
def maxNat64 : Int := 18446744073709551615

/-- A number no greater than `limit`, or a default where the variable is not set. -/
def number (lookup : String → Option String) (name : String) (limit : Int) (fallback : Nat) :
    Except SettingsFault Nat :=
  match lookup name with
  | none => .ok fallback
  | some text =>
    match Text.readInteger 0 limit text.toList with
    | .ok value => .ok value.toNat
    | .error fault => .error (.invalid name fault.message)

/-- Settings from variables. Of several faults the first in the order of the fields counts. -/
def ofVariables (lookup : String → Option String) : Except SettingsFault Settings := do
  let databaseUrl ←
    match lookup "DATABASE_URL" with
    | some url => .ok url
    | none => .error (.missing "DATABASE_URL")
  let redisUrl? := (lookup "REDIS_URL").filter fun url => !url.isEmpty
  let bindAddress := (lookup "BIND_ADDR").getD "0.0.0.0:3000"
  let databaseMaxConnections ← number lookup "DATABASE_MAX_CONNECTIONS" maxNat32 5
  let cacheTtlSeconds ← number lookup "CACHE_TTL_SECS" maxNat64 300
  let reconcileIntervalSeconds ← number lookup "RECONCILE_INTERVAL_SECS" maxNat64 60
  return {
    databaseUrl := databaseUrl
    redisUrl? := redisUrl?
    bindAddress := bindAddress
    databaseMaxConnections := databaseMaxConnections
    cacheTtlSeconds := cacheTtlSeconds
    reconcileIntervalSeconds := reconcileIntervalSeconds }

/-- How long cached values are kept, in milliseconds. -/
def cacheTtl (settings : Settings) : Nat :=
  1000 * settings.cacheTtlSeconds

end Settings

end FishMarket
