import FishMarket.Cache.Memory
import FishMarket.Cache.Shared

/-! # Where texts are cached

A service keeps its own cache, or uses one that it shares with others. Its routines are the same in
both cases.
-/

namespace FishMarket

/-- The cache of a service. -/
inductive CachePlace where
  | own (cache : MemoryCache)
  | shared (cache : SharedCache)
deriving DecidableEq, Repr

namespace CachePlace

/-- Answers a call at a moment. -/
def answer (moment : Nat) (call : CacheCall) : CachePlace → call.Answer × CachePlace
  | own cache =>
    let (reply, cache) := MemoryCache.answer moment call cache
    (reply, own cache)
  | shared cache =>
    let (reply, cache) := SharedCache.answer call cache
    (reply, shared cache)

end CachePlace

end FishMarket
