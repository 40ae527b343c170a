import FishMarket.Cache.Place
import FishMarket.Database.Script
import FishMarket.Database.Store
import FishMarket.Service.Action

/-! # The service over a database

The same routines as over a market in memory, with each call to the store replaced by the statements
that answer it.
-/

namespace FishMarket

/-- A call that the service makes when its store is a database. -/
inductive RemoteCall where
  | database (call : DatabaseCall)
  | cache (call : CacheCall)
deriving DecidableEq, Repr

/-- The answer to a call. -/
abbrev RemoteCall.Answer : RemoteCall → Type
  | database call => call.Answer
  | cache call => call.Answer

namespace Remote

/-- A routine of a database as one of the service. -/
def ofDatabase {α : Type} (routine : Routine DatabaseCall DatabaseCall.Answer α) :
    Routine RemoteCall RemoteCall.Answer α :=
  routine.expand fun call => .ask (.database call) .done

/-- Answers a call of the service. -/
def answer : (call : ServiceCall) → Routine RemoteCall RemoteCall.Answer call.Answer
  | .store call => ofDatabase (Database.answer call)
  | .cache call => .ask (.cache call) .done

/-- A routine of the service over a database. -/
def ofService {α : Type} (routine : ServiceRoutine α) : Routine RemoteCall RemoteCall.Answer α :=
  routine.expand answer

/-! ## With a script -/

/-- A database that follows a script, and a cache. -/
structure Bench where
  database : Database.Script
  cache : CachePlace

/-- A new database, and an empty cache of the service's own. -/
def Bench.initial : Bench where
  database := .initial
  cache := .own .empty

/-- A new database, and an empty cache that is shared. -/
def Bench.withSharedCache : Bench where
  database := .initial
  cache := .shared .initial

/-- Answers a call. Cached texts do not expire here. -/
def Bench.answer : (call : RemoteCall) → Bench → call.Answer × Bench
  | .database call, bench =>
    let (reply, database) := Database.Script.answer call bench.database
    (reply, { bench with database := database })
  | .cache call, bench =>
    let (reply, cache) := bench.cache.answer 0 call
    (reply, { bench with cache := cache })

/-- Carries out a routine. -/
def Bench.run {α : Type} (bench : Bench) (routine : Routine RemoteCall RemoteCall.Answer α) :
    α × Bench :=
  Routine.run Bench.answer routine bench

end Remote

end FishMarket
