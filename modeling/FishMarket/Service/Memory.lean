import FishMarket.Cache.Memory
import FishMarket.Market.Answer
import FishMarket.Service.Action

/-! # The service in memory

A market and a cache in one place, with the moment on the clock of the cache. The market answers
every call. The cache breaks off whoever wants a text to be kept until its clock has ended; nothing
has been changed by then, and nobody else is concerned.
-/

namespace FishMarket

/-- The market and the cache. -/
structure Service where
  market : Market
  cache : MemoryCache
  /-- The moment in milliseconds by which cached texts expire. -/
  moment : Nat

namespace Service

/-- The service before anything has happened. -/
def initial : Service where
  market := .initial
  cache := .empty
  moment := 0

/-- Answers a call and moves to the state after it, as if the clock of the cache had no end. -/
def answer : (call : ServiceCall) → Service → call.Answer × Service
  | .store call, service =>
    let (reply, market) := Market.answer call service.market
    (reply, { service with market := market })
  | .cache call, service =>
    let (reply, cache) := MemoryCache.answer service.moment call service.cache
    (reply, { service with cache := cache })

/-- Whether a call is answered, and not broken off. -/
def answers (service : Service) : ServiceCall → Bool
  | .store _ => true
  | .cache call => MemoryCache.answers service.moment call

/-- Answers a call and moves to the state after it, or breaks it off and stays as it is. -/
def answer? (call : ServiceCall) (service : Service) : Option call.Answer × Service :=
  if service.answers call then
    let (reply, service) := answer call service
    (some reply, service)
  else (none, service)

/-- Carries out an action without anything happening in between, as if the clock of the cache had no
end. -/
def perform {α : Type} (service : Service) (action : Action α) : Except Failure α × Service :=
  action.run.run answer service

/-- Carries out an action without anything happening in between, or breaks it off. -/
def perform? {α : Type} (service : Service) (action : Action α) :
    Option (Except Failure α) × Service :=
  action.run.run? answer? service

end Service

end FishMarket
