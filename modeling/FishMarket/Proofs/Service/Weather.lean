import FishMarket.Proofs.Cache.Mirror
import FishMarket.Proofs.Record.RoundTrip
import FishMarket.Proofs.Service.Plain
import FishMarket.Service.Memory

/-! # The service in any weather

Nothing happens to the market while a routine is carried out alone, but the cache is exposed: time
passes, texts get lost, and a call to it may fail. What a routine comes to is measured by what it
would come to if there were no cache at all. Most routines do not notice the difference, because
they use the cache only to forget what is there. Those that read through the cache come to the same
as long as the cache mirrors what is stored, and what is stored can be told from its written form.
All this is as if the clock of the cache had no end.
-/

namespace FishMarket

variable {α β γ ε : Type}

/-! ## Weather -/

/-- What happens to the cache at one call of the service. -/
structure Weather where
  /-- The milliseconds that pass before the call. -/
  elapsed : Nat
  /-- The keys under which texts get lost before the call. -/
  lost : String → Bool
  /-- Whether the cache gives no answer. -/
  fails : Bool

/-- The weather at every call. -/
abbrev Forecast : Type := Nat → Weather

/-- A service that is exposed to the weather. -/
structure Exposed where
  service : Service
  /-- The number of calls that have been answered. -/
  calls : Nat

namespace Exposed

/-- The service before anything has happened. -/
def initial : Exposed where
  service := .initial
  calls := 0

def market (exposed : Exposed) : Market :=
  exposed.service.market

def cache (exposed : Exposed) : MemoryCache :=
  exposed.service.cache

/-- The service as a call finds it. -/
def found (exposed : Exposed) (weather : Weather) : Service where
  market := exposed.market
  cache := exposed.cache.lose weather.lost
  moment := exposed.service.moment + weather.elapsed

/-- Answers a call. -/
def answer (forecast : Forecast) : (call : ServiceCall) → Exposed → call.Answer × Exposed
  | .store call, exposed =>
    let (reply, service) := Service.answer (.store call) (exposed.found (forecast exposed.calls))
    (reply, ⟨service, exposed.calls + 1⟩)
  | .cache call, exposed =>
    let weather := forecast exposed.calls
    let (reply, service) :=
      if weather.fails then (.error .unavailable, exposed.found weather)
      else Service.answer (.cache call) (exposed.found weather)
    (reply, ⟨service, exposed.calls + 1⟩)

end Exposed

/-- Answers a call where there is no cache: nothing is found in it, and nobody minds. -/
def Market.alone : (call : ServiceCall) → Market → call.Answer × Market
  | .store call, market => market.answer call
  | .cache (.get _), market => (.ok none, market)
  | .cache (.set _ _ _), market => (.ok (), market)
  | .cache (.delete _), market => (.ok (), market)

namespace Exposed

variable {forecast : Forecast} {exposed : Exposed}

theorem cache_answer_store (call : StoreCall) :
    (exposed.answer forecast (.store call)).2.cache.Within exposed.cache :=
  MemoryCache.lose_within _ _

theorem market_answer_cache (call : CacheCall) :
    (exposed.answer forecast (.cache call)).2.market = exposed.market := by
  unfold answer
  dsimp only
  split <;> rfl

/-- What is read from the cache was there. -/
theorem answer_get (key : String) :
    (∀ text, (exposed.answer forecast (.cache (.get key))).1 = .ok (some text) →
      exposed.cache.Holds key text) ∧
    (exposed.answer forecast (.cache (.get key))).2.cache.Within exposed.cache := by
  unfold answer
  dsimp only
  split
  next => exact ⟨nofun, MemoryCache.lose_within _ _⟩
  next =>
    refine ⟨fun text hreply => ?_, MemoryCache.lose_within _ _⟩
    exact MemoryCache.lose_within _ _ key text (MemoryCache.holds_of_find? (Except.ok.inj hreply))

theorem answer_set (key text : String) (ttl : Nat) {other found : String}
    (hholds : (exposed.answer forecast (.cache (.set key text ttl))).2.cache.Holds other found) :
    other = key ∧ found = text ∨ exposed.cache.Holds other found := by
  unfold answer at hholds
  dsimp only at hholds
  split at hholds
  next => exact .inr (MemoryCache.lose_within _ _ other found hholds)
  next =>
    exact (MemoryCache.holds_insert hholds).imp_right (MemoryCache.lose_within _ _ other found)

theorem answer_delete (key : String) :
    (exposed.answer forecast (.cache (.delete key))).2.cache.Within exposed.cache := by
  unfold answer
  dsimp only
  split
  next => exact MemoryCache.lose_within _ _
  next => exact (MemoryCache.erase_within _ key).trans (MemoryCache.lose_within _ _)

end Exposed

/-! ## Routines that only forget -/

namespace ServiceRoutine

/-- Whether a routine has no other use for the cache than to forget what is there, and does not mind
if that fails. -/
def Forgets : ServiceRoutine α → Prop
  | .done _ => True
  | .ask (.store _) next => ∀ answer, Forgets (next answer)
  | .ask (.cache (.delete _)) next =>
    (∀ answer, next answer = next (.ok ())) ∧ Forgets (next (.ok ()))
  | .ask (.cache _) _ => False

namespace Forgets

variable {routine : ServiceRoutine α}

theorem bind {next : α → ServiceRoutine β} (hfirst : routine.Forgets)
    (hnext : ∀ value, (next value).Forgets) : Forgets (routine.bind next) := by
  induction routine with
  | done value => exact hnext value
  | ask call rest ih =>
      cases call with
      | store call => exact fun answer => ih answer (hfirst answer)
      | cache call =>
          cases call with
          | delete key =>
              exact ⟨fun answer => congrArg (Routine.bind · next) (hfirst.1 answer),
                ih _ hfirst.2⟩
          | get | set => exact hfirst

theorem andThen {first : ExceptT ε (Routine ServiceCall ServiceCall.Answer) α}
    {next : α → ExceptT ε (Routine ServiceCall ServiceCall.Answer) β}
    (hfirst : Forgets first.run) (hnext : ∀ value, Forgets (next value).run) :
    Forgets (first >>= next).run := by
  refine ServiceRoutine.Forgets.bind hfirst fun outcome => ?_
  cases outcome with
  | ok value => exact hnext value
  | error failure => exact trivial

theorem of_asks (hstore : routine.Asks ServiceCall.IsStore) : routine.Forgets := by
  induction routine with
  | done value => exact trivial
  | ask call next ih =>
      cases call with
      | store call => exact fun answer => ih answer (hstore.2 answer)
      | cache call => exact hstore.1.elim

theorem store (call : StoreCall) : Forgets (Action.store call).run := fun _ => trivial

theorem forget (key : String) : Forgets (Action.forget key).run := ⟨fun _ => rfl, trivial⟩

theorem returned (value : α) :
    Forgets (pure value : ExceptT ε (Routine ServiceCall ServiceCall.Answer) α).run := trivial

theorem composes : Routine.Composes
    fun _ (action : ExceptT ε (Routine ServiceCall ServiceCall.Answer) _) => Forgets action.run :=
  ⟨returned, fun _ => trivial, andThen⟩

/-- A routine that only forgets comes to the same in any weather, and brings nothing into the
cache. -/
theorem run (hforgets : routine.Forgets) (forecast : Forecast) (exposed : Exposed) :
    (routine.run (Exposed.answer forecast) exposed).1 =
        (routine.run Market.alone exposed.market).1 ∧
      (routine.run (Exposed.answer forecast) exposed).2.market =
        (routine.run Market.alone exposed.market).2 ∧
      (routine.run (Exposed.answer forecast) exposed).2.cache.Within exposed.cache := by
  induction routine generalizing exposed with
  | done value => exact ⟨rfl, rfl, .refl _⟩
  | ask call next ih =>
      cases call with
      | store call =>
          obtain ⟨houtcome, hmarket, hcache⟩ :=
            ih _ (hforgets _) (exposed.answer forecast (.store call)).2
          exact ⟨houtcome, hmarket, hcache.trans (Exposed.cache_answer_store call)⟩
      | cache call =>
          cases call with
          | get | set => exact hforgets.elim
          | delete key =>
              let reply := (exposed.answer forecast (.cache (.delete key))).1
              let after := (exposed.answer forecast (.cache (.delete key))).2
              -- the routine goes on as if the cache had done what it was asked to
              have hsame : next reply = next (.ok ()) := hforgets.1 reply
              have halone : (next reply).run Market.alone after.market =
                  (next (.ok ())).run Market.alone exposed.market := by
                rw [hsame, Exposed.market_answer_cache]
              obtain ⟨houtcome, hmarket, hcache⟩ := ih reply (hsame ▸ hforgets.2) after
              exact ⟨houtcome.trans (congrArg Prod.fst halone),
                hmarket.trans (congrArg Prod.snd halone),
                hcache.trans (Exposed.answer_delete key)⟩

end Forgets

end ServiceRoutine

open ServiceRoutine (Forgets)

/-! ## Reading through the cache -/

namespace Action

section

variable {σ : Type} (answer : (call : ServiceCall) → σ → call.Answer × σ)

theorem run_bind (first : Action α) (next : α → Action β) (state : σ) :
    (first >>= next).run.run answer state =
      match first.run.run answer state with
      | (.ok value, state) => (next value).run.run answer state
      | (.error failure, state) => (.error failure, state) := by
  refine (Routine.run_bind answer first.run _ state).trans ?_
  dsimp only
  split
  next value after heq => rw [heq]; rfl
  next failure after heq => rw [heq]; rfl

/-- The record that the answer of a cache is read as. -/
def decode? (α : Type) [Recorded α] : Except CacheFault (Option String) → Option α
  | .ok (some text) => (Record.readWhole α text.toList).toOption
  | _ => none

variable [Recorded α]

/-- What a read through the cache does, call by call. -/
theorem readThrough_run (key : String) (ttl : Nat) (load : Action (Option α)) :
    (readThrough key ttl load).run = .ask (.cache (.get key)) fun answer =>
      match decode? α answer with
      | some record => .done (.ok (some record))
      | none => load.run.bind fun loaded =>
        match loaded with
        | .ok (some record) =>
          .ask (.cache (.set key (String.ofList (Recorded.json record)) ttl)) fun _ =>
            .done (.ok (some record))
        | .ok none => .done (.ok none)
        | .error failure => .done (.error failure) := by
  have hmissed : (ExceptT.run do
      let loaded ← load
      match loaded with
      | some record =>
        remember key record ttl
        pure loaded
      | none => pure loaded) =
      load.run.bind fun loaded =>
        match loaded with
        | .ok (some record) =>
          .ask (.cache (.set key (String.ofList (Recorded.json record)) ttl)) fun _ =>
            .done (.ok (some record))
        | .ok none => .done (.ok none)
        | .error failure => .done (.error failure) := by
    refine congrArg (Routine.bind load.run) (funext fun loaded => ?_)
    rcases loaded with failure | _ | record <;> rfl
  refine congrArg (Routine.ask (ServiceCall.cache (.get key))) (funext fun answer => ?_)
  rcases answer with fault | _ | text
  · exact hmissed
  · exact hmissed
  · simp only [decode?, Routine.bind, ExceptT.bindCont, Function.comp_apply]
    cases Record.readWhole α text.toList with
    | ok record => rfl
    | error fault => exact hmissed

/-- What it does if there has to be a record. -/
theorem readThrough_found_run (key : String) (ttl : Nat) (load : Action (Option α))
    (subject : Subject) :
    (readThrough key ttl load >>= found subject).run = .ask (.cache (.get key)) fun answer =>
      match decode? α answer with
      | some record => .done (.ok record)
      | none => load.run.bind fun loaded =>
        match loaded with
        | .ok (some record) =>
          .ask (.cache (.set key (String.ofList (Recorded.json record)) ttl)) fun _ =>
            .done (.ok record)
        | .ok none => .done (.error (.notFound subject))
        | .error failure => .done (.error failure) := by
  refine (congrArg (Routine.bind · _) (readThrough_run key ttl load)).trans ?_
  refine congrArg (Routine.ask (ServiceCall.cache (.get key))) (funext fun answer => ?_)
  dsimp only
  cases decode? α answer with
  | some record => rfl
  | none =>
      refine (Routine.bind_assoc load.run _ _).trans ?_
      refine congrArg load.run.bind (funext fun loaded => ?_)
      rcases loaded with failure | _ | record <;> rfl

/-- A record is taken from the cache, or else loaded and left there. -/
theorem run_readThrough (key : String) (ttl : Nat) (load : Action (Option α)) (state : σ) :
    (readThrough key ttl load).run.run answer state =
      match decode? α (answer (.cache (.get key)) state).1 with
      | some record => (.ok (some record), (answer (.cache (.get key)) state).2)
      | none =>
        match load.run.run answer (answer (.cache (.get key)) state).2 with
        | (.ok (some record), state) => (.ok (some record),
            (answer (.cache (.set key (String.ofList (Recorded.json record)) ttl)) state).2)
        | (.ok none, state) => (.ok none, state)
        | (.error failure, state) => (.error failure, state) := by
  rw [readThrough_run, Routine.run]
  dsimp only
  cases decode? α (answer (.cache (.get key)) state).1 with
  | some record => rfl
  | none =>
      dsimp only
      rw [Routine.run_bind]
      rcases load.run.run answer _ with ⟨failure | _ | record, after⟩ <;> rfl

end

/-- Looking something up in the market. -/
structure Loads (load : Action (Option α)) (stored : Market → Option α) : Prop where
  forgets : Forgets load.run
  alone : ∀ market, load.run.run Market.alone market = (.ok (stored market), market)

variable {load : Action (Option α)} {stored : Market → Option α}

theorem Loads.run (hload : load.Loads stored) (forecast : Forecast) (exposed : Exposed) :
    ∃ after, load.run.run (Exposed.answer forecast) exposed = (.ok (stored exposed.market), after) ∧
      after.market = exposed.market ∧ after.cache.Within exposed.cache := by
  obtain ⟨houtcome, hmarket, hcache⟩ := hload.forgets.run forecast exposed
  rw [hload.alone] at houtcome hmarket
  exact ⟨_, Prod.ext houtcome rfl, hmarket, hcache⟩

variable [Recorded α]

theorem readThrough_alone (hload : load.Loads stored) (key : String) (ttl : Nat)
    (market : Market) :
    (readThrough key ttl load).run.run Market.alone market = (.ok (stored market), market) := by
  have hmissed : decode? α (Market.alone (.cache (.get key)) market).1 = none := rfl
  rw [run_readThrough, hmissed]
  dsimp only [Market.alone]
  rw [hload.alone]
  cases stored market <;> rfl

variable (forecast : Forecast) {exposed : Exposed} {entity : Cache.Entity}
  {held : Int → α → Prop} (id : Int)

/-- What is found in a cache that mirrors some rows is what one of them is read as. -/
theorem held_of_decode? {forecast : Forecast} {id : Int}
    (hmirrors : exposed.cache.Mirrors entity held) {record : α}
    (hdecode : decode? α (exposed.answer forecast (.cache (.get (Cache.key entity id)))).1 =
      some record) :
    ∃ row, held id row ∧ Record.readWhole α (Recorded.json row) = .ok record := by
  cases hreply : (exposed.answer forecast (.cache (.get (Cache.key entity id)))).1 with
  | error fault => rw [hreply] at hdecode; cases hdecode
  | ok text? =>
      cases text? with
      | none => rw [hreply] at hdecode; cases hdecode
      | some text =>
          obtain ⟨row, hrow, rfl⟩ := hmirrors id text ((Exposed.answer_get _).1 text hreply)
          rw [hreply, decode?, String.toList_ofList] at hdecode
          refine ⟨row, hrow, ?_⟩
          cases hread : Record.readWhole α (Recorded.json row) with
          | error fault => rw [hread] at hdecode; cases hdecode
          | ok read =>
              rw [hread] at hdecode
              exact congrArg Except.ok (Option.some.inj hdecode)

/-- Reading through a cache that mirrors some rows comes to what one of them is read as, or to what
is stored. All that is left in the cache is what is stored. -/
theorem run_readThrough_mirrors (hload : load.Loads stored)
    (hmirrors : exposed.cache.Mirrors entity held) (ttl : Nat) :
    let ended := (readThrough (Cache.key entity id) ttl load).run.run
      (Exposed.answer forecast) exposed
    ended.2.market = exposed.market ∧
      (ended.1 = .ok (stored exposed.market) ∨
        ∃ row, held id row ∧ ∃ record, Record.readWhole α (Recorded.json row) = .ok record ∧
          ended.1 = .ok (some record)) ∧
      ended.2.cache.Learns exposed.cache entity id (stored exposed.market) := by
  let read := exposed.answer forecast (.cache (.get (Cache.key entity id)))
  have hmarket : read.2.market = exposed.market := Exposed.market_answer_cache _
  have hwithin : read.2.cache.Within exposed.cache := (Exposed.answer_get _).2
  obtain ⟨after, hrun, hafter, hleft⟩ := hload.run forecast read.2
  rw [hmarket] at hrun hafter
  rw [run_readThrough]
  cases hdecode : decode? α read.1 with
  | some record =>
      obtain ⟨row, hrow, hread⟩ := held_of_decode? hmirrors hdecode
      exact ⟨hmarket, .inr ⟨row, hrow, record, hread, rfl⟩,
        MemoryCache.Learns.of_within hwithin entity id _⟩
  | none =>
      rw [hrun]
      cases hstored : stored exposed.market with
      | none =>
          exact ⟨hafter, .inl rfl,
            MemoryCache.Learns.of_within (hleft.trans hwithin) entity id none⟩
      | some record =>
          -- all that is new in the cache is the record that has just been loaded
          refine ⟨(Exposed.market_answer_cache _).trans hafter, .inl rfl,
            fun key text hholds => ?_⟩
          rcases Exposed.answer_set _ _ _ hholds with ⟨hkey, htext⟩ | hheld
          · exact .inr ⟨record, rfl, hkey, htext⟩
          · exact .inl ((hleft.trans hwithin) key text hheld)

/-- What an action that looks for a record comes to. -/
def sought (subject : Subject) (outcome : Except Failure (Option α)) : Except Failure α :=
  outcome.bind fun found? => found?.elim (.error (.notFound subject)) .ok

omit [Recorded α] in
theorem run_found {σ : Type} (answer : (call : ServiceCall) → σ → call.Answer × σ)
    (look : Action (Option α)) (subject : Subject) (state : σ) :
    (look >>= found subject).run.run answer state =
      (sought subject (look.run.run answer state).1, (look.run.run answer state).2) := by
  rw [run_bind]
  rcases look.run.run answer state with ⟨failure | _ | record, after⟩ <;> rfl

theorem fetch_alone (hload : load.Loads stored) (key : String) (ttl : Nat) (subject : Subject)
    (market : Market) :
    (readThrough key ttl load >>= found subject).run.run Market.alone market =
      (sought subject (.ok (stored market)), market) := by
  rw [run_found, readThrough_alone hload]

/-- Fetching a record comes to what it would come to without a cache, or to what a row is read as
that the cache mirrors. -/
theorem run_fetch (hload : load.Loads stored) (hmirrors : exposed.cache.Mirrors entity held)
    (ttl : Nat) (subject : Subject) :
    let ended := (readThrough (Cache.key entity id) ttl load >>= found subject).run.run
      (Exposed.answer forecast) exposed
    ended.2.market = exposed.market ∧
      (ended.1 = sought subject (.ok (stored exposed.market)) ∨
        ∃ row, held id row ∧ ∃ record, Record.readWhole α (Recorded.json row) = .ok record ∧
          ended.1 = .ok record) ∧
      ended.2.cache.Learns exposed.cache entity id (stored exposed.market) := by
  obtain ⟨hmarket, houtcome, hlearns⟩ := run_readThrough_mirrors forecast id hload hmirrors ttl
  dsimp only
  rw [run_found]
  refine ⟨hmarket, ?_, hlearns⟩
  rcases houtcome with hstored | ⟨row, hrow, record, hrecord, hread⟩
  · exact .inl (congrArg (sought subject) hstored)
  · exact .inr ⟨row, hrow, record, hrecord, congrArg (sought subject) hread⟩

variable [LawfulRecorded α]

/-- Fetching comes to a row that the cache mirrors, or to what is stored, if the rows can be told
from their written forms. -/
theorem run_fetch_held (hload : load.Loads stored) (hmirrors : exposed.cache.Mirrors entity held)
    (hlegible : ∀ row, held id row → Recorded.Legible row) (ttl : Nat) (subject : Subject) :
    let ended := (readThrough (Cache.key entity id) ttl load >>= found subject).run.run
      (Exposed.answer forecast) exposed
    ended.1 = sought subject (.ok (stored exposed.market)) ∨
      ∃ row, held id row ∧ ended.1 = .ok row := by
  obtain ⟨-, houtcome, -⟩ := run_fetch forecast id hload hmirrors ttl subject
  refine houtcome.imp_right fun ⟨row, hrow, record, hrecord, hread⟩ => ⟨row, hrow, ?_⟩
  rw [hread, (hlegible row hrow).eq_of_readWhole hrecord]

/-- Fetching comes to what is stored if the cache mirrors nothing else. -/
theorem run_fetch_stored (hload : load.Loads stored) (hmirrors : exposed.cache.Mirrors entity held)
    (hheld : ∀ row, held id row → stored exposed.market = some row)
    (hlegible : ∀ row, held id row → Recorded.Legible row) (ttl : Nat) (subject : Subject) :
    ((readThrough (Cache.key entity id) ttl load >>= found subject).run.run
      (Exposed.answer forecast) exposed).1 = sought subject (.ok (stored exposed.market)) := by
  rcases run_fetch_held forecast id hload hmirrors hlegible ttl subject with
    hsame | ⟨row, hrow, hread⟩
  · exact hsame
  · rw [hheld row hrow]
    exact hread

end Action

end FishMarket
