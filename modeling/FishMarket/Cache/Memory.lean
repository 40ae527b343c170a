import FishMarket.Cache.Call

/-! # The cache in memory

Texts with the moment at which they cease to be valid, on a clock of milliseconds. A text that has
expired is not handed out any more, even if it has not been removed. The clock counts seconds in a
signed number of 64 bits, and whoever wants a text to be kept until it has ended is broken off.
-/

namespace FishMarket

/-- A cached text. -/
structure CacheEntry where
  text : String
  /-- The first moment at which the text is no longer valid. -/
  expiresAt : Nat
deriving DecidableEq, Repr

/-- The cache that the service keeps itself. -/
structure MemoryCache where
  /-- The entries, the newest first; of several under one key only the newest counts. -/
  entries : List (String × CacheEntry)
deriving DecidableEq, Repr

namespace MemoryCache

/-- The cache without entries. -/
def empty : MemoryCache :=
  ⟨[]⟩

/-- The text under a key at a moment. -/
def find? (cache : MemoryCache) (moment : Nat) (key : String) : Option String :=
  match cache.entries.lookup key with
  | some entry => if moment < entry.expiresAt then some entry.text else none
  | none => none

/-- Removes what is under a key. -/
def erase (cache : MemoryCache) (key : String) : MemoryCache :=
  ⟨cache.entries.filter fun entry => entry.1 ≠ key⟩

/-- Puts a text under a key for so many milliseconds. -/
def insert (cache : MemoryCache) (moment : Nat) (key text : String) (ttl : Nat) : MemoryCache :=
  ⟨(key, ⟨text, moment + ttl⟩) :: (cache.erase key).entries⟩

/-- The moment at which the clock ends. -/
def endOfClock : Nat := 9223372036854775808000

/-- Whether a call at a moment is answered, and not broken off. -/
def answers (moment : Nat) : CacheCall → Bool
  | .set _ _ ttl => moment + ttl < endOfClock
  | _ => true

/-- Answers a call at a moment, as if the clock had no end. -/
def answer (moment : Nat) : (call : CacheCall) → MemoryCache → call.Answer × MemoryCache
  | .get key, cache => (.ok (cache.find? moment key), cache)
  | .set key text ttl, cache => (.ok (), cache.insert moment key text ttl)
  | .delete key, cache => (.ok (), cache.erase key)

end MemoryCache

end FishMarket
