import FishMarket.Proofs.Service.Weather

/-! # Breaking off

A routine is broken off when it wants a text to be kept until the clock of the cache has ended.
Routines that only forget never are. Those that read through the cache may be, as the last thing
that they do, and have changed nothing by then. So a routine comes to what it would come to if the
clock had no end, or it is broken off near that end and leaves everything as it has found it.
-/

namespace FishMarket

variable {α β : Type}

namespace Exposed

variable {forecast : Forecast} {exposed after : Exposed}

/-- Answers a call, or breaks it off. -/
def answer? (forecast : Forecast) : (call : ServiceCall) → Exposed → Option call.Answer × Exposed
  | .store call, exposed =>
    let (reply?, service) := Service.answer? (.store call) (exposed.found (forecast exposed.calls))
    (reply?, ⟨service, exposed.calls + 1⟩)
  | .cache call, exposed =>
    let weather := forecast exposed.calls
    let (reply?, service) :=
      if weather.fails then (some (.error .unavailable), exposed.found weather)
      else Service.answer? (.cache call) (exposed.found weather)
    (reply?, ⟨service, exposed.calls + 1⟩)

/-- Whether the clock of the cache ends within so many milliseconds. -/
def EndsWithin (exposed : Exposed) (ttl : Nat) : Prop :=
  MemoryCache.endOfClock ≤ exposed.service.moment + ttl

instance (exposed : Exposed) (ttl : Nat) : Decidable (exposed.EndsWithin ttl) :=
  inferInstanceAs (Decidable (_ ≤ _))

theorem EndsWithin.mono {ttl longer : Nat} (hends : exposed.EndsWithin ttl) (hle : ttl ≤ longer) :
    exposed.EndsWithin longer :=
  Nat.le_trans hends (Nat.add_le_add_left hle _)

/-! ## Calls -/

theorem answer?_store (forecast : Forecast) (exposed : Exposed) (call : StoreCall) :
    exposed.answer? forecast (.store call) =
      (some (exposed.answer forecast (.store call)).1, (exposed.answer forecast (.store call)).2) :=
  rfl

/-- A call to the cache is answered if it does not ask for a text to be kept. -/
theorem answer?_cache (forecast : Forecast) (exposed : Exposed) {call : CacheCall}
    (hcall : ∀ moment, MemoryCache.answers moment call = true) :
    exposed.answer? forecast (.cache call) =
      (some (exposed.answer forecast (.cache call)).1,
        (exposed.answer forecast (.cache call)).2) := by
  unfold answer? answer
  dsimp only
  split
  next => rfl
  next =>
    rw [Service.answer?, if_pos (show Service.answers _ (.cache call) = true from hcall _)]

/-- A call to keep a text is answered, or it is broken off near the end of the clock. -/
theorem answer?_set (forecast : Forecast) (exposed : Exposed) (key text : String) (ttl : Nat) :
    let call : ServiceCall := .cache (.set key text ttl)
    exposed.answer? forecast call =
        (some (exposed.answer forecast call).1, (exposed.answer forecast call).2) ∨
      ∃ after, exposed.answer? forecast call = (none, after) ∧ after.market = exposed.market ∧
        after.cache.Within exposed.cache ∧ after.EndsWithin ttl := by
  intro call
  simp only [call, answer?, answer]
  split
  next => exact .inl rfl
  next =>
    rw [Service.answer?]
    split
    next => exact .inl rfl
    next hanswers =>
      refine .inr ⟨_, rfl, rfl, MemoryCache.lose_within _ _, ?_⟩
      exact Nat.le_of_not_lt fun hlt => hanswers (decide_eq_true hlt)

/-! ## Time -/

theorem moment_le_answer? (forecast : Forecast) (exposed : Exposed) (call : ServiceCall) :
    exposed.service.moment ≤ (exposed.answer? forecast call).2.service.moment := by
  have hfound (weather : Weather) :
      exposed.service.moment ≤ (exposed.found weather).moment := Nat.le_add_right _ _
  cases call with
  | store call => exact hfound _
  | cache call =>
      unfold answer?
      dsimp only
      split
      next => exact hfound _
      next =>
        rw [Service.answer?]
        split <;> exact hfound _

/-- Time passes while a routine is carried out. -/
theorem moment_le_run? (forecast : Forecast) (exposed : Exposed) (routine : ServiceRoutine α) :
    exposed.service.moment ≤ (routine.run? (answer? forecast) exposed).2.service.moment := by
  induction routine generalizing exposed with
  | done value => exact Nat.le_refl _
  | ask call next ih =>
      have hfirst := exposed.moment_le_answer? forecast call
      rw [Routine.run?]
      split
      next reply after heq =>
        rw [heq] at hfirst
        exact Nat.le_trans hfirst (ih reply after)
      next after heq =>
        rw [heq] at hfirst
        exact hfirst

/-! ## States in which somebody is broken off -/

/-- Whether a service near the end of its clock is as another was, but for time and texts that have
got lost. -/
structure Intact (exposed : Exposed) (ttl : Nat) (after : Exposed) : Prop where
  market : after.market = exposed.market
  cache : after.cache.Within exposed.cache
  ends : after.EndsWithin ttl

end Exposed

open ServiceRoutine (Forgets)

/-! ## Routines that only forget -/

/-- A routine that only forgets is never broken off. -/
theorem ServiceRoutine.Forgets.run? {routine : ServiceRoutine α} (hforgets : routine.Forgets)
    (forecast : Forecast) (exposed : Exposed) :
    let ended := routine.run (Exposed.answer forecast) exposed
    routine.run? (Exposed.answer? forecast) exposed = (some ended.1, ended.2) := by
  induction routine generalizing exposed with
  | done value => rfl
  | ask call next ih =>
      cases call with
      | store call =>
          simp only [Routine.run?, Exposed.answer?_store]
          exact ih _ (hforgets _) _
      | cache call =>
          cases call with
          | get | set => exact hforgets.elim
          | delete key =>
              have hdelete := @exposed.answer?_cache forecast (.delete key) fun _ => rfl
              simp only [Routine.run?, hdelete]
              refine ih _ ?_ _
              rw [hforgets.1]
              exact hforgets.2

namespace ServiceRoutine

/-- Whether a routine comes to what it would come to if the clock had no end, or else is broken off
within so many milliseconds of that end, and has changed nothing by then. -/
def Retreats (ttl : Nat) (routine : ServiceRoutine α) : Prop :=
  ∀ (forecast : Forecast) (exposed : Exposed),
    let ended := routine.run (Exposed.answer forecast) exposed
    routine.run? (Exposed.answer? forecast) exposed = (some ended.1, ended.2) ∨
      ∃ after, routine.run? (Exposed.answer? forecast) exposed = (none, after) ∧
        exposed.Intact ttl after

namespace Retreats

variable {ttl longer : Nat} {routine : ServiceRoutine α}

theorem of_forgets (hforgets : routine.Forgets) : routine.Retreats ttl :=
  fun forecast exposed => .inl (hforgets.run? forecast exposed)

theorem mono (hretreats : routine.Retreats ttl) (hle : ttl ≤ longer) : routine.Retreats longer := by
  intro forecast exposed
  refine (hretreats forecast exposed).imp_right fun ⟨after, hrun, hintact⟩ => ⟨after, hrun, ?_⟩
  exact { hintact with ends := hintact.ends.mono hle }

/-- What only forgets may follow. -/
theorem bind {next : α → ServiceRoutine β} (hfirst : routine.Retreats ttl)
    (hnext : ∀ value, (next value).Forgets) : Retreats ttl (routine.bind next) := by
  intro forecast exposed
  rw [Routine.run?_bind, Routine.run_bind]
  rcases hfirst forecast exposed with hrun | ⟨after, hrun, hintact⟩
  · rw [hrun]
    exact .inl ((hnext _).run? forecast _)
  · rw [hrun]
    exact .inr ⟨after, rfl, hintact⟩

end Retreats

end ServiceRoutine

/-! ## Reading through the cache -/

namespace Action

variable [Recorded α] {load : Action (Option α)} {stored : Market → Option α}

/-- Fetching a record is broken off only if the record is stored and was not found in the cache. -/
theorem run?_fetch (hload : load.Loads stored) (key : String) (ttl : Nat) (subject : Subject)
    (forecast : Forecast) (exposed : Exposed) :
    let routine := (readThrough key ttl load >>= found subject).run
    let ended := routine.run (Exposed.answer forecast) exposed
    routine.run? (Exposed.answer? forecast) exposed = (some ended.1, ended.2) ∨
      (∃ record, stored exposed.market = some record) ∧
        ∃ after, routine.run? (Exposed.answer? forecast) exposed = (none, after) ∧
          exposed.Intact ttl after := by
  intro routine ended
  let read := exposed.answer forecast (.cache (.get key))
  have hmarket : read.2.market = exposed.market := Exposed.market_answer_cache _
  have hget : exposed.answer? forecast (.cache (.get key)) = (some read.1, read.2) :=
    exposed.answer?_cache forecast fun _ => rfl
  simp only [ended, routine, readThrough_found_run, Routine.run?, Routine.run, hget]
  cases hdecode : decode? α read.1 with
  | some record =>
      exact .inl rfl
  | none =>
      obtain ⟨between, hloaded, hsame, hwithin⟩ := hload.run forecast read.2
      rw [hmarket] at hloaded hsame
      dsimp only
      rw [Routine.run?_bind, Routine.run_bind, hload.forgets.run?, hloaded]
      cases hstored : stored exposed.market with
      | none => exact .inl rfl
      | some record =>
          rcases between.answer?_set forecast key (String.ofList (Recorded.json record)) ttl with
            hset | ⟨after, hset, hafter, hcache, hends⟩
          · left
            simp only [Routine.run?, hset]
            rfl
          · refine .inr ⟨⟨record, rfl⟩, after, ?_, hafter.trans hsame, ?_, hends⟩
            · simp only [Routine.run?, hset]
            · exact hcache.trans (hwithin.trans (Exposed.answer_get _).2)

theorem fetch_retreats (hload : load.Loads stored) (key : String) (ttl : Nat) (subject : Subject) :
    ServiceRoutine.Retreats ttl (readThrough key ttl load >>= found subject).run :=
  fun forecast exposed => (run?_fetch hload key ttl subject forecast exposed).imp_right And.right

end Action

end FishMarket
