import FishMarket.Service.Memory

/-! # Rehearsals

A service whose store and cache are disturbed on purpose. A hook waits for the next call of one
operation of the store: it refuses that call, or makes another one just before it. The cache can be
made to fail, operation by operation; what it holds stays there.
-/

namespace FishMarket

/-- What a hook does to the call that it has waited for. -/
inductive Interference where
  /-- The call fails instead of being made. -/
  | refuse (failure : Failure)
  /-- Another call is made first, and its answer ignored. -/
  | precede (call : StoreCall)
deriving DecidableEq, Repr

/-- A disturbance of the next call of an operation. -/
structure Hook where
  operation : String
  interference : Interference
deriving DecidableEq, Repr

/-- The operations of the cache that fail. -/
structure Outage where
  get : Bool
  set : Bool
  delete : Bool
deriving DecidableEq, Repr

/-- A service with hooks and an outage of its cache. -/
structure Rehearsal where
  service : Service
  /-- The hooks that have not fired, the oldest first. -/
  hooks : List Hook
  outage : Outage

namespace Rehearsal

/-- A new service without disturbances. -/
def initial : Rehearsal where
  service := .initial
  hooks := []
  outage := ⟨false, false, false⟩

/-- Carries out a routine that no hook and no outage disturbs. -/
def undisturbed {α : Type} (rehearsal : Rehearsal) (routine : ServiceRoutine α) :
    α × Rehearsal :=
  let (value, service) := routine.run Service.answer rehearsal.service
  (value, { rehearsal with service := service })

/-- Adds a hook behind the ones that are waiting. -/
def arm (rehearsal : Rehearsal) (hook : Hook) : Rehearsal :=
  { rehearsal with hooks := rehearsal.hooks ++ [hook] }

/-- Lets the next bid be refused by the market. -/
def refuseBid (rehearsal : Rehearsal) : Rehearsal :=
  let service := rehearsal.service
  { rehearsal with service := { service with market := service.market.refuseBid } }

/-- The transaction that a call ends, if it is made. -/
def endedBy? : StoreCall → Option TransactionId
  | .commit transaction => some transaction
  | .rollback transaction => some transaction
  | _ => none

/-- What becomes of the market when a call is refused: a transaction that was to end is gone. -/
def refused (call : StoreCall) (market : Market) : Market :=
  match endedBy? call with
  | some transaction => market.close transaction
  | none => market

/-- Answers a call to the store with no hook waiting for it. -/
def answerStore (call : StoreCall) (rehearsal : Rehearsal) : call.Answer × Rehearsal :=
  let (reply, service) := rehearsal.service.answer (.store call)
  (reply, { rehearsal with service := service })

/-- Whether an operation of the cache fails. -/
def Outage.affects (outage : Outage) : CacheCall → Bool
  | .get _ => outage.get
  | .set _ _ _ => outage.set
  | .delete _ => outage.delete

/-- Answers a call, letting the oldest hook for it fire. -/
def answer : (call : ServiceCall) → Rehearsal → call.Answer × Rehearsal
  | .store call, rehearsal =>
    match rehearsal.hooks.find? fun hook => hook.operation = call.operation with
    | none => answerStore call rehearsal
    | some hook =>
      let rehearsal := { rehearsal with hooks := rehearsal.hooks.erase hook }
      match hook.interference with
      | .refuse failure =>
        let service := rehearsal.service
        (.error failure, { rehearsal with
          service := { service with market := refused call service.market } })
      | .precede first => answerStore call (answerStore first rehearsal).2
  | .cache call, rehearsal =>
    if Outage.affects rehearsal.outage call then (.error .unavailable, rehearsal)
    else
      let (reply, service) := rehearsal.service.answer (.cache call)
      (reply, { rehearsal with service := service })

/-- Carries out a routine under disturbances. -/
def run {α : Type} (rehearsal : Rehearsal) (routine : ServiceRoutine α) : α × Rehearsal :=
  Routine.run answer routine rehearsal

end Rehearsal

end FishMarket
