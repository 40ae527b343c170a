import FishMarket.Cache.Shared
import FishMarket.Market.Answer
import FishMarket.Proofs.Service.Weather
import FishMarket.Proofs.Settings

/-! # How long a shared cache keeps what it is sent

Whoever looks for an item, a buyer or a fisherman and does not find it in the cache sends it there
with a number of seconds. That number comes from the settings, where it is written in decimal and
may be any number of 64 bits, by way of milliseconds and, for items, of the bound on their time. A
server takes it as a signed number of 64 bits, so only the lower half of what can be set arrives as
it was set.
-/

namespace FishMarket

/-! ## Seconds -/

namespace SharedCommand

/-- A number of seconds that a signed number of 64 bits can hold is kept, but for zero. -/
theorem lifetime_of_fitting {seconds : Nat} (hfits : seconds < 9223372036854775808) :
    lifetime (1000 * seconds) = max 1 (seconds : Int) := by
  unfold lifetime
  rw [Nat.mul_div_cancel_left seconds (by decide), Int.bmod_eq_of_le (by omega) (by omega)]
  omega

/-- A greater one comes out negative. -/
theorem lifetime_of_overflowing {seconds : Nat} (hlo : 9223372036854775808 ≤ seconds)
    (hhi : seconds ≤ 18446744073709551615) :
    lifetime (1000 * seconds) = seconds - 18446744073709551616 := by
  unfold lifetime
  rw [Nat.mul_div_cancel_left seconds (by decide), ← Int.sub_bmod_right,
    Int.bmod_eq_of_le (by omega) (by omega)]
  omega

/-- The bound on the time of items leaves nothing that does not fit. -/
theorem lifetime_itemTtl (seconds : Nat) :
    lifetime (Cache.itemTtl (1000 * seconds)) = max 1 (min (seconds : Int) 5) := by
  have hbounded : Cache.itemTtl (1000 * seconds) = 1000 * min seconds 5 := by
    unfold Cache.itemTtl Cache.itemTtlMax
    omega
  rw [hbounded, lifetime_of_fitting (by omega)]
  omega

/-! ## Commands -/

/-- The commands that become of calls, word by word. Only calls to the cache become commands. -/
def sent (log : List ((call : ServiceCall) × call.Answer)) : List (List String) :=
  log.filterMap fun asked =>
    match asked.1 with
    | .cache call => some (ofCall call).words
    | .store _ => none

theorem sent_append (log later : List ((call : ServiceCall) × call.Answer)) :
    sent (log ++ later) = sent log ++ sent later :=
  List.filterMap_append

end SharedCommand

theorem SharedCache.log_answer (call : CacheCall) (cache : SharedCache) :
    (answer call cache).2.log = cache.log ++ [.ofCall call] := by
  have hreceived : (answer call cache).2.received = .ofCall call :: cache.received := by
    unfold answer
    split
    next => rfl
    next => cases call <;> rfl
  rw [log, hreceived, List.reverse_cons]
  rfl

section

variable {α σ : Type} {server : (call : ServiceCall) → σ → call.Answer × σ}
  {routine : ServiceRoutine α}

/-- Whoever only calls the store sends nothing to a cache. -/
theorem Routine.Asks.sent_eq_nil (hasks : routine.Asks ServiceCall.IsStore) (state : σ) :
    SharedCommand.sent (routine.transcript server state) = [] := by
  induction routine generalizing state with
  | done value => rfl
  | ask call next ih =>
      cases call with
      | store call => exact ih _ (hasks.2 _) _
      | cache call => exact hasks.1.elim

/-- What is sent arrives at a shared cache, in order, if that is where the calls to the cache are
answered. -/
theorem SharedCache.log_run {cache : σ → SharedCache}
    (hcache : ∀ call state, cache (server (.cache call) state).2 = (answer call (cache state)).2)
    (hstore : ∀ call state, cache (server (.store call) state).2 = cache state) (state : σ) :
    (cache (routine.run server state).2).log.map SharedCommand.words =
      (cache state).log.map SharedCommand.words ++
        SharedCommand.sent (routine.transcript server state) := by
  induction routine generalizing state with
  | done value => exact (List.append_nil _).symm
  | ask call next ih =>
      refine (ih _ _).trans ?_
      cases call with
      | store call =>
          rw [hstore]
          rfl
      | cache call =>
          rw [hcache, log_answer, List.map_append, List.append_assoc]
          rfl

end

/-! ## Queries -/

namespace Action

variable {α : Type} [Recorded α]

/-- Whether a query asks a shared cache for a key and then, if it has found a record elsewhere, has
it kept there for so many seconds, and sends nothing else, whatever answers it is given. -/
def KeepsFor (seconds : Int) (key : String) (query : Action α) : Prop :=
  ∀ {σ : Type} (server : (call : ServiceCall) → σ → call.Answer × σ) (state : σ),
    SharedCommand.sent (query.run.transcript server state) = ["GET", key] ::
      match decode? α (server (.cache (.get key)) state).1, (query.run.run server state).1 with
      | none, .ok record =>
        [["SET", key, String.ofList (Recorded.json record), "EX", Text.decimal seconds]]
      | _, _ => []

/-- There is no more than one such number, unless the query never has anything kept. -/
theorem KeepsFor.unique {key : String} {query : Action α} {seconds other : Int}
    (hseconds : query.KeepsFor seconds key) (hother : query.KeepsFor other key) {σ : Type}
    (server : (call : ServiceCall) → σ → call.Answer × σ) (state : σ) {record : α}
    (hmissed : decode? α (server (.cache (.get key)) state).1 = none)
    (hfound : (query.run.run server state).1 = .ok record) : seconds = other := by
  have hsent := (hseconds server state).symm.trans (hother server state)
  rw [hmissed, hfound] at hsent
  simp only [List.cons.injEq, and_true, true_and] at hsent
  exact Text.decimal_injective hsent

theorem keepsFor_readThrough {load : Action (Option α)} {subject : Subject}
    (hload : load.run.Asks ServiceCall.IsStore) (key : String) (ttl : Nat) :
    (readThrough key ttl load >>= found subject).KeepsFor (SharedCommand.lifetime ttl) key := by
  intro σ server state
  rw [readThrough_found_run, Routine.transcript, Routine.run]
  dsimp only
  cases decode? α (server (.cache (.get key)) state).1 with
  | some record => rfl
  | none =>
      refine (SharedCommand.sent_append [⟨.cache (.get key), _⟩] _).trans ?_
      dsimp only
      rw [Routine.transcript_bind, Routine.run_bind, SharedCommand.sent_append, hload.sent_eq_nil]
      dsimp only
      rcases (load.run.run server _).1 with failure | _ | record <;> rfl

end Action

namespace Query

theorem getItem_keepsFor (ttl : Nat) (id : Int) :
    (getItem ttl id).KeepsFor (SharedCommand.lifetime (Cache.itemTtl ttl)) (Cache.itemKey id) :=
  Action.keepsFor_readThrough (Action.store_asks trivial) _ _

theorem getBuyer_keepsFor (ttl : Nat) (id : Int) :
    (getBuyer ttl id).KeepsFor (SharedCommand.lifetime ttl) (Cache.buyerKey id) :=
  Action.keepsFor_readThrough (Action.store_asks trivial) _ _

theorem getFisherman_keepsFor (ttl : Nat) (id : Int) :
    (getFisherman ttl id).KeepsFor (SharedCommand.lifetime ttl) (Cache.fishermanKey id) :=
  Action.keepsFor_readThrough (Action.store_asks trivial) _ _

end Query

/-! ## Settings -/

namespace Settings

/-- Items are kept for the time that was set, within their bound. Buyers and fishermen are kept for
the time that was set if it fits a signed number of 64 bits; a greater one is sent as a negative
number. -/
theorem kept_as_long_as_set {lookup : String → Option String} {settings : Settings}
    (haccepted : ofVariables lookup = .ok settings) :
    Gives lookup "CACHE_TTL_SECS" 18446744073709551615 300 settings.cacheTtlSeconds ∧
      ∀ id,
        (Query.getItem settings.cacheTtl id).KeepsFor
          (max 1 (min (settings.cacheTtlSeconds : Int) 5)) (Cache.itemKey id) ∧
        (settings.cacheTtlSeconds < 9223372036854775808 →
          (Query.getBuyer settings.cacheTtl id).KeepsFor
            (max 1 (settings.cacheTtlSeconds : Int)) (Cache.buyerKey id) ∧
          (Query.getFisherman settings.cacheTtl id).KeepsFor
            (max 1 (settings.cacheTtlSeconds : Int)) (Cache.fishermanKey id)) ∧
        (9223372036854775808 ≤ settings.cacheTtlSeconds →
          (Query.getBuyer settings.cacheTtl id).KeepsFor
            ((settings.cacheTtlSeconds : Int) - 18446744073709551616) (Cache.buyerKey id) ∧
          (Query.getFisherman settings.cacheTtl id).KeepsFor
            ((settings.cacheTtlSeconds : Int) - 18446744073709551616) (Cache.fishermanKey id)) := by
  have hgiven := (ofVariables_eq_ok_iff.mp haccepted).cacheTtlSeconds
  refine ⟨hgiven, fun id => ⟨?_, fun hfits => ?_, fun hlarge => ?_⟩⟩
  · rw [← SharedCommand.lifetime_itemTtl]
    exact Query.getItem_keepsFor _ id
  · rw [← SharedCommand.lifetime_of_fitting hfits]
    exact ⟨Query.getBuyer_keepsFor _ id, Query.getFisherman_keepsFor _ id⟩
  · rw [← SharedCommand.lifetime_of_overflowing hlarge hgiven.1]
    exact ⟨Query.getBuyer_keepsFor _ id, Query.getFisherman_keepsFor _ id⟩

theorem kept_for_longest_time_that_fits :
    ofVariables (sharing "9223372036854775807") = .ok (shared 9223372036854775807) ∧
      (Query.getItem (shared 9223372036854775807).cacheTtl 1).KeepsFor 5 (Cache.itemKey 1) ∧
      (Query.getBuyer (shared 9223372036854775807).cacheTtl 1).KeepsFor 9223372036854775807
        (Cache.buyerKey 1) :=
  have haccepted : ofVariables (sharing "9223372036854775807") = .ok (shared 9223372036854775807) :=
    rfl
  have hkept := (kept_as_long_as_set haccepted).2 1
  ⟨haccepted, hkept.1, (hkept.2.1 (by decide)).1⟩

/-- A market in memory answers for the store, and a shared cache for the cache. -/
def answerSharing : (call : ServiceCall) → Market × SharedCache → call.Answer × Market × SharedCache
  | .store call, (market, cache) =>
    let (reply, market) := Market.answer call market
    (reply, market, cache)
  | .cache call, (market, cache) =>
    let (reply, cache) := SharedCache.answer call cache
    (reply, market, cache)

/-- A buyer is sent with less than no time if the time that was set does not fit. -/
theorem not_kept_as_long_as_set :
    ¬ ∀ (lookup : String → Option String) (settings : Settings),
      ofVariables lookup = .ok settings → ∀ id,
        (Query.getItem settings.cacheTtl id).KeepsFor
          (max 1 (min (settings.cacheTtlSeconds : Int) 5)) (Cache.itemKey id) ∧
        (Query.getBuyer settings.cacheTtl id).KeepsFor
          (max 1 (settings.cacheTtlSeconds : Int)) (Cache.buyerKey id) ∧
        (Query.getFisherman settings.cacheTtl id).KeepsFor
          (max 1 (settings.cacheTtlSeconds : Int)) (Cache.fishermanKey id) := by
  intro hclaim
  have haccepted : ofVariables (sharing "9223372036854775808") = .ok (shared 9223372036854775808) :=
    rfl
  obtain ⟨-, hkept, -⟩ := hclaim _ _ haccepted 1
  -- the buyer is on record, and nothing is cached yet
  have hsame := hkept.unique (Query.getBuyer_keepsFor _ 1) answerSharing
    ((Market.initial.createBuyer "Lee" default).2, .initial) rfl rfl
  rw [cacheTtl, SharedCommand.lifetime_of_overflowing (by decide) (by decide)] at hsame
  exact absurd hsame (by decide)

end Settings

end FishMarket
