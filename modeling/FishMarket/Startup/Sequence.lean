import FishMarket.Database.Store
import FishMarket.Settings
import FishMarket.Startup.Address
import FishMarket.Startup.Notice
import FishMarket.Text.Quoted

/-! # Starting the service

The steps from the settings to the moment at which requests can be served. The database has to be
reached and must have its tables; the shared cache is only an aid, and without it the service
keeps its own. The routine asks the world for each step, so that starting can be gone through
without a network.
-/

namespace FishMarket

/-! ## What can go wrong -/

/-- Why the service does not start. -/
inductive StartupFault where
  | settings (fault : SettingsFault)
  | databaseUnreachable
  | schemaFailed
  | addressUnusable
deriving DecidableEq, Repr

/-- A text between quotation marks. -/
def quotedText (text : String) : String :=
  String.ofList (Text.quoted text.toList)

/-- A fault of the settings in terms of the variables. -/
def SettingsFault.shown : SettingsFault → String
  | missing name => "MissingEnvVar(" ++ quotedText name ++ ")"
  | invalid name reason =>
    "InvalidEnvValue \x7b var: " ++ quotedText name ++ ", reason: " ++ quotedText reason ++ " \x7d"

namespace StartupFault

/-- The last line that the service writes, where notices have not said all. -/
def lastLine? : StartupFault → Option String
  | settings fault => some ("Error: " ++ fault.shown)
  | databaseUnreachable => none
  | schemaFailed => none
  | addressUnusable => none

/-- The code with which the program ends when the service does not start. -/
def exitCode (_ : StartupFault) : Nat := 1

end StartupFault

/-! ## Calls -/

/-- What is known of a service that can begin to serve requests. -/
structure Opening where
  settings : Settings
  address : Address
  /-- Whether the shared cache has been found. -/
  sharedCache : Bool
deriving DecidableEq, Repr

/-- What is asked of the world while the service starts. -/
inductive StartupCall where
  /-- Connects to a database, with no more than so many connections. -/
  | connectDatabase (url : String) (connections : Nat)
  /-- Does nothing for so many milliseconds. -/
  | pause (duration : Nat)
  | database (call : DatabaseCall)
  | connectCache (url : String)
  /-- Begins to serve requests. -/
  | listen (opening : Opening)
  | report (notice : Notice)
deriving DecidableEq, Repr

/-- The answer to a call. -/
abbrev StartupCall.Answer : StartupCall → Type
  | connectDatabase _ _ => Bool
  | pause _ => Unit
  | database call => call.Answer
  | connectCache _ => Bool
  | listen _ => Bool
  | report _ => Unit

/-- A routine that belongs to starting. -/
abbrev StartupRoutine (α : Type) : Type :=
  Routine StartupCall StartupCall.Answer α

namespace Startup

/-- Asks the world. -/
def ask (call : StartupCall) : StartupRoutine call.Answer :=
  .ask call .done

/-! ## The database -/

/-- How often the database is tried. -/
def connectAttempts : Nat := 10

/-- The milliseconds between two attempts. -/
def connectPause : Nat := 2000

/-- Tries once to reach the database. -/
def attempt (url : String) (connections number : Nat) : StartupRoutine Bool := do
  let connected ← ask (.connectDatabase url connections)
  if connected then ask (.report (.databaseConnected number))
  return connected

/-- Tries to reach the database, and as long as that fails again, as many times as the last argument
says. -/
def connectFrom (url : String) (connections : Nat) : Nat → StartupRoutine Bool
  | 0 => attempt url connections connectAttempts
  | later + 1 => do
    let number := connectAttempts - (later + 1)
    if ← attempt url connections number then return true
    ask (.report (.databaseRetry number connectAttempts))
    ask (.pause connectPause)
    connectFrom url connections later

/-- Tries to reach the database. -/
def connect (url : String) (connections : Nat) : StartupRoutine Bool :=
  connectFrom url connections (connectAttempts - 1)

/-- Creates the tables unless they are there. -/
def createSchema : StartupRoutine Bool :=
  Database.migrate.expand fun call => ask (.database call)

/-! ## The sequence -/

/-- Steps of starting that may fail. -/
abbrev Sequence (α : Type) : Type :=
  ExceptT StartupFault (Routine StartupCall StartupCall.Answer) α

/-- Does one step. -/
def step {α : Type} (routine : StartupRoutine α) : Sequence α :=
  ExceptT.lift routine

/-- Looks for the shared cache, if there is to be one. Whether it has been found is the result. -/
def chooseCache : Option String → StartupRoutine Bool
  | none => return false
  | some url => do
    let connected ← ask (.connectCache url)
    ask (.report (if connected then .cacheConnected else .cacheUnreachable))
    return connected

/-- Starts the service with settings. -/
def start (settings : Settings) : Sequence Unit := do
  if !(← step (connect settings.databaseUrl settings.databaseMaxConnections)) then
    step (ask (.report .databaseUnreachable))
    throw .databaseUnreachable
  if !(← step createSchema) then
    step (ask (.report .schemaFailed))
    throw .schemaFailed
  step (ask (.report .schemaReady))
  let sharedCache ← step (chooseCache settings.redisUrl?)
  match Address.read? settings.bindAddress with
  | none => throw .addressUnusable
  | some address =>
    if !(← step (ask (.listen { settings, address, sharedCache }))) then
      throw .addressUnusable
    step (ask (.report (.listening settings.bindAddress)))

/-- Starts the service from variables. -/
def fromVariables (lookup : String → Option String) : Sequence Unit :=
  match Settings.ofVariables lookup with
  | .ok settings => start settings
  | .error fault => throw (.settings fault)

end Startup

end FishMarket
