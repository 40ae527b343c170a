import FishMarket.Text.Decimal

/-! # Calls to a cache

A cache keeps texts under keys for a time. It is an aid only: a miss is an ordinary answer, and
whoever calls it goes on when it fails.

Items, buyers and fishermen are cached, each under a key made from what it is and its id. The time
for which an item is kept is bounded, because a value that was read before a settlement may be
stored after it.
-/

namespace FishMarket

namespace Cache

/-- What is cached under a key. -/
inductive Entity where
  | item
  | buyer
  | fisherman
deriving DecidableEq, Repr

/-- The name of a cached entity within its key. -/
def Entity.name : Entity → String
  | item => "item"
  | buyer => "buyer"
  | fisherman => "fisherman"

/-- The key of an entity. -/
def key (entity : Entity) (id : Int) : String :=
  "fish-auction:" ++ entity.name ++ ":" ++ Text.decimal id

/-- The key of an item. -/
def itemKey (id : Int) : String :=
  key .item id

/-- The key of a buyer. -/
def buyerKey (id : Int) : String :=
  key .buyer id

/-- The key of a fisherman. -/
def fishermanKey (id : Int) : String :=
  key .fisherman id

/-- The longest time in milliseconds for which an item is cached. -/
def itemTtlMax : Nat := 5000

/-- The time in milliseconds for which an item is cached, given the one set for all entities. -/
def itemTtl (configured : Nat) : Nat :=
  min configured itemTtlMax

end Cache

/-- Why a cache gives no answer. -/
inductive CacheFault where
  /-- The cache does not work. -/
  | unavailable
  /-- The text that it holds is not what was expected under the key. -/
  | unreadable
deriving DecidableEq, Repr

/-- A call to a cache. -/
inductive CacheCall where
  | get (key : String)
  /-- Keeps a text for so many milliseconds. -/
  | set (key : String) (text : String) (ttl : Nat)
  | delete (key : String)
deriving DecidableEq, Repr

namespace CacheCall

/-- What a call yields when it succeeds. -/
abbrev Yield : CacheCall → Type
  | get _ => Option String
  | set _ _ _ => Unit
  | delete _ => Unit

/-- The answer to a call. -/
abbrev Answer (call : CacheCall) : Type :=
  Except CacheFault call.Yield

end CacheCall

end FishMarket
