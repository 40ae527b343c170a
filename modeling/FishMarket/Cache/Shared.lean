import FishMarket.Cache.Call

/-! # The shared cache

A cache that several services share is a server of its own. It is sent commands, each of them a
list of words, and it counts the time for which a text is kept in whole seconds. What is kept here
of the server is what a service can see of it: the texts it holds, the commands it has been sent,
and whether it is in order. Nothing expires while somebody looks.
-/

namespace FishMarket

/-- A command to the server. -/
inductive SharedCommand where
  | get (key : String)
  /-- Keeps a text for so many seconds. -/
  | set (key text : String) (seconds : Int)
  | delete (key : String)
deriving DecidableEq, Repr

namespace SharedCommand

/-- The number of seconds that stands for so many milliseconds. It is never less than one second,
and it is written as a signed number of 64 bits, so that one too great for that comes out
negative. -/
def lifetime (ttl : Nat) : Int :=
  Int.bmod (max 1 (ttl / 1000) : Nat) 18446744073709551616

/-- The command that a call to the cache becomes. -/
def ofCall : CacheCall → SharedCommand
  | .get key => .get key
  | .set key text ttl => .set key text (lifetime ttl)
  | .delete key => .delete key

/-- The words of a command. -/
def words : SharedCommand → List String
  | get key => ["GET", key]
  | set key text seconds => ["SET", key, text, "EX", Text.decimal seconds]
  | delete key => ["DEL", key]

end SharedCommand

/-- The server of a shared cache. -/
structure SharedCache where
  entries : List (String × String)
  /-- Whether every command is answered with an error. -/
  down : Bool
  /-- The commands that have arrived, the latest first. -/
  received : List SharedCommand
deriving DecidableEq, Repr

namespace SharedCache

/-- A server that holds nothing. -/
def initial : SharedCache where
  entries := []
  down := false
  received := []

/-- The server in order or out of order, with no commands noted. -/
def prepare (cache : SharedCache) (down : Bool) : SharedCache :=
  { cache with down := down, received := [] }

/-- The commands that have arrived, in order. -/
def log (cache : SharedCache) : List SharedCommand :=
  cache.received.reverse

/-- Removes what is under a key. -/
def erase (cache : SharedCache) (key : String) : SharedCache :=
  { cache with entries := cache.entries.filter fun entry => entry.1 ≠ key }

/-- Puts a text under a key. -/
def insert (cache : SharedCache) (key text : String) : SharedCache :=
  { cache with entries := (key, text) :: (cache.erase key).entries }

/-- Notes that a command has arrived. -/
def note (cache : SharedCache) (command : SharedCommand) : SharedCache :=
  { cache with received := command :: cache.received }

/-- What a server in order makes of a call. -/
def serve : (call : CacheCall) → SharedCache → call.Yield × SharedCache
  | .get key, cache => (cache.entries.lookup key, cache)
  | .set key text _, cache => ((), cache.insert key text)
  | .delete key, cache => ((), cache.erase key)

/-- Answers a call. -/
def answer (call : CacheCall) (cache : SharedCache) : call.Answer × SharedCache :=
  let noted := cache.note (.ofCall call)
  if cache.down then (.error .unavailable, noted)
  else
    let (value, served) := serve call noted
    (.ok value, served)

end SharedCache

end FishMarket
