import FishMarket.Database.Script
import FishMarket.Startup.Sequence

/-! # Rehearsals of starting

A small world in which the service starts: a database that follows a script under one address, a
shared cache under another, and nowhere to listen. Pauses take no time but are added up.
-/

namespace FishMarket

/-- The world around a service that starts. -/
structure StartupRehearsal where
  /-- The only address with a database. -/
  databaseUrl : String
  database : Database.Script
  /-- The only address with a cache. -/
  cacheUrl : String
  /-- The milliseconds of all pauses. -/
  paused : Nat
  /-- The notices, the latest first. -/
  notices : List Notice

namespace StartupRehearsal

/-- Answers a call. -/
def answer : (call : StartupCall) → StartupRehearsal → call.Answer × StartupRehearsal
  | .connectDatabase url _, world => (url == world.databaseUrl, world)
  | .pause duration, world => ((), { world with paused := world.paused + duration })
  | .database call, world =>
    let (reply, database) := Database.Script.answer call world.database
    (reply, { world with database := database })
  | .connectCache url, world => (url == world.cacheUrl, world)
  | .listen _, world => (false, world)
  | .report notice, world => ((), { world with notices := notice :: world.notices })

/-- Goes through a routine. -/
def run {α : Type} (world : StartupRehearsal) (routine : StartupRoutine α) :
    α × StartupRehearsal :=
  Routine.run answer routine world

/-- The notices in order. -/
def log (world : StartupRehearsal) : List Notice :=
  world.notices.reverse

end StartupRehearsal

end FishMarket
