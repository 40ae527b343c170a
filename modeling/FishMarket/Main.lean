import FishMarket.Calendar.Instant
import FishMarket.Http.Respond
import FishMarket.Query
import FishMarket.Service.Memory
import FishMarket.Startup.Sequence
import Std.Http
import Std.Time

/-! # The program

The service over HTTP. It is set up by variables of the environment and goes through the sequence of
starting. This program holds the market and the cache in its own memory, so the database is always
there, its tables need not be created, and a shared cache is never found. Everything that is decided
is decided in the library; here are clocks, the network and the output.
-/

namespace FishMarket.Program

open Std.Async

/-- The service that a running program keeps. -/
structure Desk where
  service : IO.Ref Service
  /-- The milliseconds for which entities are cached. -/
  ttl : Nat

/-- The instant on the clock of the system. -/
def currentInstant : IO Calendar.Instant := do
  let timestamp ← Std.Time.Timestamp.now
  return .ofNanos timestamp.toNanosecondsSinceUnixEpoch.val

/-- Carries out a routine. No other one comes in between. -/
def Desk.carryOut {α : Type} (desk : Desk) (routine : ServiceRoutine α) : IO α := do
  let moment ← IO.monoMsNow
  let value? ← desk.service.modifyGet fun service =>
    routine.run? Service.answer? { service with moment := moment }
  match value? with
  | some value => return value
  | none => throw (.userError "overflow when adding duration to instant")

/-! ## Requests -/

/-- A request as the library sees it. -/
def readRequest (request : Std.Http.Request Std.Http.Body.Stream) :
    ContextAsync Http.Request := do
  let body : ByteArray ← request.body.readAll
  let head := request.line
  return {
    method := .ofName (toString head.method)
    target := toString head.uri
    headers := head.headers.toList.map fun (name, value) => (toString name, toString value)
    body }

/-- A response for the wire, which adds the length itself. -/
def writeResponse (response : Http.Response) : Async (Std.Http.Response Std.Http.Body.Any) := do
  let status := (Std.Http.Status.ofCode none response.status.toUInt16).getD .internalServerError
  let builder := response.headers.foldl
    (fun builder (name, value) =>
      if name = "content-length" then builder else (builder.header? name value).getD builder)
    (Std.Http.Response.withStatus status)
  let body ← Std.Http.Body.Full.ofString response.body
  return builder.body (Std.Http.Body.Any.ofBody body)

instance : Std.Http.Server.Handler Desk where
  onRequest desk request := do
    let request ← readRequest request
    let now ← currentInstant
    let response ← desk.carryOut (Http.respond desk.ttl now request)
    writeResponse response

/-! ## Listening -/

/-- The addresses of a host. -/
def resolve (host : String) : Async (List Std.Net.IPAddr) := do
  let bare := String.ofList (host.toList.filter fun c => c ≠ '[' ∧ c ≠ ']')
  match Std.Net.IPv4Addr.ofString bare, Std.Net.IPv6Addr.ofString bare with
  | some address, _ => return [.v4 address]
  | none, some address => return [.v6 address]
  | none, none => return (← DNS.getAddrInfo host "").toList

/-- An address of a host with a port. -/
def socketAddress (address : Std.Net.IPAddr) (port : Nat) : Std.Net.SocketAddress :=
  match address with
  | .v4 address => .v4 ⟨address, port.toUInt16⟩
  | .v6 address => .v6 ⟨address, port.toUInt16⟩

/-- Completes overdue auctions at intervals of so many seconds. -/
partial def sweepEvery (desk : Desk) (seconds : Nat) : Async Unit := do
  let now ← currentInstant
  desk.carryOut (Query.sweep now)
  sleep (.ofInt (1000 * seconds))
  sweepEvery desk seconds

/-- Begins to serve requests. -/
def serve? (opening : Opening) : Async (Option Std.Http.Server) := do
  let desk : Desk := {
    service := ← IO.mkRef .initial
    ttl := opening.settings.cacheTtl }
  let seconds := opening.settings.reconcileIntervalSeconds
  if 0 < seconds then background (sweepEvery desk seconds)
  try
    match ← resolve opening.address.host with
    | [] => return none
    | address :: _ =>
      return some (← Std.Http.Server.serve (socketAddress address opening.address.port) desk)
  catch _ =>
    return none

/-! ## Starting -/

/-- Answers a call of the sequence of starting, and keeps the server once there is one. -/
def answer (server : IO.Ref (Option Std.Http.Server)) :
    (call : StartupCall) → IO call.Answer
  | .connectDatabase _ _ => return true
  | .pause duration => IO.sleep duration.toUInt32
  | .database .hasSchema => return .ok true
  | .database _ => return .error ⟨"0A000", "no statements"⟩
  | .connectCache _ => return false
  | .listen opening => do
    let opened ← (serve? opening).block
    server.set opened
    return opened.isSome
  | .report notice => IO.println notice.line

/-- The variables of the environment that are looked at. -/
def environment : IO (List (String × String)) :=
  Settings.variableNames.filterMapM fun name => do
    return (← IO.getEnv name).map fun value => (name, value)

/-- Starts the service and serves requests until the program is ended from outside. -/
def run : IO UInt32 := do
  let known ← environment
  let server ← IO.mkRef none
  let sequence := Startup.fromVariables fun name => known.lookup name
  match ← sequence.run.interpret (answer server) with
  | .error fault =>
    if let some line := fault.lastLine? then IO.eprintln line
    return fault.exitCode.toUInt32
  | .ok () =>
    if let some opened ← server.get then
      (Std.Http.Server.waitShutdown opened).block
    return 0

end FishMarket.Program

/-- The program. -/
def main : IO UInt32 :=
  FishMarket.Program.run
