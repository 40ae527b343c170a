import FishMarket.Cache.Call
import FishMarket.Record.Reader
import FishMarket.Record.Writer
import FishMarket.Routine
import FishMarket.Store.Call

/-! # Actions

The work of the service is written as routines that call a store and a cache and end with a result
or a failure. An answer of the store that is a failure ends the action with it; a fault of the
cache never does.
-/

namespace FishMarket

/-- A call that the service makes. -/
inductive ServiceCall where
  | store (call : StoreCall)
  | cache (call : CacheCall)
deriving DecidableEq, Repr

/-- The answer to a call of the service. -/
abbrev ServiceCall.Answer : ServiceCall → Type
  | store call => call.Answer
  | cache call => call.Answer

/-- A routine of the service. -/
abbrev ServiceRoutine (α : Type) : Type :=
  Routine ServiceCall ServiceCall.Answer α

/-- A routine of the service that may fail. -/
abbrev Action (α : Type) : Type :=
  ExceptT Failure (Routine ServiceCall ServiceCall.Answer) α

namespace Action

variable {α : Type}

/-- Calls the store; its failure is the failure of the action. -/
def store (call : StoreCall) : Action call.Yield :=
  ExceptT.mk (.ask (.store call) .done)

/-- Calls the cache and looks at the answer. -/
def cache (call : CacheCall) : Action call.Answer :=
  ExceptT.lift (.ask (.cache call) .done)

/-- Carries on with a failure in hand instead of ending. -/
def attempt (action : Action α) : Action (Except Failure α) :=
  ExceptT.lift action.run

/-- Ends with a failure or goes on with a value. -/
def ofExcept (outcome : Except Failure α) : Action α :=
  ExceptT.mk (.done outcome)

/-- Ends with `NotFound` where there is nothing. -/
def found (subject : Subject) : Option α → Action α
  | some value => pure value
  | none => throw (.notFound subject)

/-! ## The cache as an aid -/

/-- The record that is cached under a key. -/
def cached? (α : Type) [Recorded α] (key : String) : Action (Except CacheFault (Option α)) := do
  match ← cache (.get key) with
  | .error fault => return .error fault
  | .ok none => return .ok none
  | .ok (some text) =>
    match Record.readWhole α text.toList with
    | .ok record => return .ok (some record)
    | .error _ => return .error .unreadable

/-- Caches a record. It does not matter whether that succeeds. -/
def remember [Recorded α] (key : String) (record : α) (ttl : Nat) : Action Unit := do
  let _ ← cache (.set key (String.ofList (Recorded.json record)) ttl)

/-- Forgets what is cached under a key. It does not matter whether that succeeds. -/
def forget (key : String) : Action Unit := do
  let _ ← cache (.delete key)

/-- Takes a record from the cache, or else from the store, and then caches it. A cache that fails
is one that does not hold the record. -/
def readThrough [Recorded α] (key : String) (ttl : Nat) (load : Action (Option α)) :
    Action (Option α) := do
  match ← cached? α key with
  | .ok (some record) => return some record
  | _ =>
    let loaded ← load
    match loaded with
    | some record => remember key record ttl
    | none => pure ()
    return loaded

end Action

end FishMarket
