import FishMarket.Proofs.Service.Caching
import FishMarket.Service.Remote

/-! # Recalling what was remembered

A record that was put into a cache is handed out as it was, until its time is up, whatever happens
in between, as long as nobody removes it or puts something else in its place. What is kept of the
record is only its text, so this needs a reader that reads the text back. The service's own cache
needs a clock that lasts until the time is up.
-/

namespace FishMarket

variable {α : Type}

namespace Action

/-- The record that is cached under a key, as a reader understands its text. -/
def remembered? (read : List Char → Except Json.Fault α) (key : String) :
    Action (Except CacheFault (Option α)) := do
  match ← cache (.get key) with
  | .error fault => return .error fault
  | .ok none => return .ok none
  | .ok (some text) =>
    match read text.toList with
    | .ok record => return .ok (some record)
    | .error _ => return .error .unreadable

theorem cached?_eq_remembered? [Recorded α] (key : String) :
    cached? α key = remembered? (Record.readWhole α) key := rfl

/-- A text that is handed out is read. -/
theorem remembered?_of_text {σ : Type} {answer : (call : ServiceCall) → σ → call.Answer × σ}
    {state : σ} {read : List Char → Except Json.Fault α} {key : String} {record : α} (text : String)
    (hget : (answer (.cache (.get key)) state).1 = .ok (some text))
    (hread : read text.toList = .ok record) :
    ((remembered? read key).run.run answer state).1 = .ok (.ok (some record)) := by
  have hcache : (cache (.get key)).run.run answer state =
      (.ok (answer (.cache (.get key)) state).1, (answer (.cache (.get key)) state).2) := rfl
  unfold remembered?
  rw [run_bind, hcache, hget]
  simp only [hread]
  rfl

theorem remembered?_asks {sort : ServiceCall → Prop} (read : List Char → Except Json.Fault α)
    {key : String} (hget : sort (.cache (.get key))) :
    (remembered? read key).run.Asks sort := by
  refine Routine.Asks.composes.andThen (cache_asks hget) fun reply => ?_
  rcases reply with fault | _ | text
  · exact trivial
  · exact trivial
  · dsimp only
    split <;> exact trivial

end Action

/-! ## The service's own cache -/

/-- Whether a call asks for nothing to be kept. -/
def ServiceCall.KeepsNothing : ServiceCall → Prop
  | .cache (.set _ _ _) => False
  | _ => True

/-- Nobody is broken off who wants nothing to be kept. -/
theorem Service.perform?_of_asks {action : Action α}
    (hasks : action.run.Asks ServiceCall.KeepsNothing) (service : Service) :
    service.perform? action = (some (service.perform action).1, (service.perform action).2) := by
  refine hasks.run? (fun call state hkeeps => ?_) service
  rcases call with call | (_ | _ | _)
  · rfl
  · rfl
  · exact hkeeps.elim
  · rfl

/-- What may happen to the service between two calls of somebody. A call that is broken off changes
nothing, so it need not be one. -/
inductive Happening where
  | call (call : ServiceCall) (reception : Reception)
  | wait (elapsed : Nat)

/-- Whether nothing is removed or replaced under a key. -/
def Happening.Spares (key : String) : Happening → Prop
  | .call (.cache (.set other _ _)) .answered => other ≠ key
  | .call (.cache (.delete other)) .answered => other ≠ key
  | _ => True

theorem MemoryCache.lookup_erase {cache : MemoryCache} {key other : String} (hother : other ≠ key) :
    (cache.erase other).entries.lookup key = cache.entries.lookup key := by
  unfold erase
  rw [lookup_filter cache.entries (fun kept => kept ≠ other), if_pos (by simp [hother.symm])]

namespace Service

variable {service : Service} {key : String}

/-- The service after some happenings. -/
def meet (service : Service) : Happening → Service
  | .call call reception => (service.receive call reception).2
  | .wait elapsed => service.wait elapsed

/-- The service after happenings one after the other. -/
def meetAll (service : Service) (happenings : List Happening) : Service :=
  happenings.foldl meet service

/-- A happening that spares a key leaves its entry alone. -/
theorem lookup_meet {happening : Happening} (hspares : happening.Spares key) :
    (service.meet happening).cache.entries.lookup key = service.cache.entries.lookup key := by
  cases happening with
  | wait elapsed => rfl
  | call call reception =>
      cases call with
      | store call => cases reception <;> rfl
      | cache call =>
          cases reception with
          | refused failure => rfl
          | answered =>
              cases call with
              | get other => rfl
              | delete other => exact MemoryCache.lookup_erase hspares
              | set other text ttl =>
                  have hother : key ≠ other := Ne.symm hspares
                  change List.lookup key (_ :: _) = _
                  rw [List.lookup_cons, beq_false_of_ne hother]
                  exact MemoryCache.lookup_erase hspares

theorem lookup_meetAll {happenings : List Happening}
    (hspares : ∀ happening ∈ happenings, happening.Spares key) :
    (service.meetAll happenings).cache.entries.lookup key = service.cache.entries.lookup key := by
  induction happenings generalizing service with
  | nil => rfl
  | cons happening rest ih =>
      obtain ⟨hfirst, hrest⟩ := List.forall_mem_cons.mp hspares
      exact (ih hrest).trans (lookup_meet hfirst)

/-- As long as the clock lasts until its time is up, a record is remembered. -/
theorem perform?_remember [Recorded α] (service : Service) (key : String) (record : α) {ttl : Nat}
    (hlasts : service.moment + ttl < MemoryCache.endOfClock) :
    service.perform? (Action.remember key record ttl) = (some (.ok ()), { service with
      cache := service.cache.insert service.moment key (String.ofList (Recorded.json record))
        ttl }) := by
  let call : ServiceCall := .cache (.set key (String.ofList (Recorded.json record)) ttl)
  have hset : service.answer? call = (some (answer call service).1, (answer call service).2) :=
    if_pos (decide_eq_true hlasts)
  have hrun : (Action.remember key record ttl).run = .ask call fun _ => .done (.ok ()) := rfl
  rw [perform?, hrun, Routine.run?, hset]
  rfl

/-- What was remembered is recalled until its time is up. -/
theorem remembered?_of_remember [Recorded α] {read : List Char → Except Json.Fault α} {record : α}
    (hread : read (Recorded.json record) = .ok record) {service : Service} {key : String}
    {ttl : Nat} (hlasts : service.moment + ttl < MemoryCache.endOfClock)
    {happenings : List Happening} (hspares : ∀ happening ∈ happenings, happening.Spares key) :
    ∃ stored, service.perform? (Action.remember key record ttl) = (some (.ok ()), stored) ∧
      let later := stored.meetAll happenings
      later.moment < service.moment + ttl →
        (later.perform? (Action.remembered? read key)).1 = some (.ok (.ok (some record))) := by
  refine ⟨_, perform?_remember service key record hlasts, fun hlive => ?_⟩
  rw [perform?_of_asks (Action.remembered?_asks read trivial)]
  refine congrArg some (Action.remembered?_of_text (String.ofList (Recorded.json record)) ?_ ?_)
  · change Except.ok (MemoryCache.find? _ _ key) = _
    rw [MemoryCache.find?, lookup_meetAll hspares, MemoryCache.insert, List.lookup_cons_self]
    exact congrArg Except.ok (if_pos hlive)
  · rw [String.toList_ofList]
    exact hread

end Service

/-! ## A shared cache -/

/-- Whether a call removes and replaces nothing under a key. -/
def RemoteCall.Spares (key : String) : RemoteCall → Prop
  | .cache (.set other _ _) => other ≠ key
  | .cache (.delete other) => other ≠ key
  | _ => True

namespace Remote.Bench

variable {bench : Bench} {key text : String}

/-- Whether a shared cache is in order and holds a text under a key. -/
def Holds (key text : String) (bench : Bench) : Prop :=
  ∃ cache : SharedCache, bench.cache = .shared cache ∧ cache.down = false ∧
    cache.entries.lookup key = some text

/-- The bench after calls one after the other. -/
def answerAll (bench : Bench) (calls : List RemoteCall) : Bench :=
  calls.foldl (fun bench call => (bench.answer call).2) bench

/-- A call that spares a key leaves alone what is kept under it. -/
theorem Holds.answer (hholds : bench.Holds key text) {call : RemoteCall}
    (hspares : call.Spares key) : (Bench.answer call bench).2.Holds key text := by
  obtain ⟨cache, hcache, hdown, hlookup⟩ := hholds
  have herase {other : String} (hother : other ≠ key) :
      (cache.entries.filter fun entry => entry.1 ≠ other).lookup key = some text := by
    rw [MemoryCache.lookup_filter cache.entries (fun kept => kept ≠ other),
      if_pos (by simp [hother.symm]), hlookup]
  cases call with
  | database call => exact ⟨cache, hcache, hdown, hlookup⟩
  | cache call =>
      simp only [Bench.answer, hcache, CachePlace.answer, SharedCache.answer, SharedCache.note,
        hdown, Bool.false_eq_true, if_false]
      refine ⟨_, rfl, ?_, ?_⟩
      · cases call <;> rfl
      · cases call with
        | get other => exact hlookup
        | delete other => exact herase hspares
        | set other kept ttl =>
            have hother : key ≠ other := Ne.symm hspares
            change List.lookup key (_ :: _) = _
            rw [List.lookup_cons, beq_false_of_ne hother]
            exact herase hspares

theorem Holds.answerAll (hholds : bench.Holds key text) {calls : List RemoteCall}
    (hspares : ∀ call ∈ calls, call.Spares key) : (bench.answerAll calls).Holds key text := by
  induction calls generalizing bench with
  | nil => exact hholds
  | cons call rest ih =>
      obtain ⟨hfirst, hrest⟩ := List.forall_mem_cons.mp hspares
      exact ih (hholds.answer hfirst) hrest

/-- What was remembered in a shared cache is recalled. -/
theorem remembered?_of_remember [Recorded α] {read : List Char → Except Json.Fault α} {record : α}
    (hread : read (Recorded.json record) = .ok record) {cache : SharedCache}
    (hcache : bench.cache = .shared cache) (hdown : cache.down = false) (key : String) (ttl : Nat)
    {calls : List RemoteCall} (hspares : ∀ call ∈ calls, call.Spares key) :
    let stored := (bench.run (ofService (Action.remember key record ttl).run)).2
    ((stored.answerAll calls).run (ofService (Action.remembered? read key).run)).1 =
      .ok (.ok (some record)) := by
  intro stored
  have hstored : stored.Holds key (String.ofList (Recorded.json record)) := by
    have hset : stored = (Bench.answer (.cache (.set key
        (String.ofList (Recorded.json record)) ttl)) bench).2 := rfl
    rw [hset]
    simp only [Bench.answer, hcache, CachePlace.answer, SharedCache.answer, SharedCache.note, hdown,
      Bool.false_eq_true, if_false]
    exact ⟨_, rfl, rfl, List.lookup_cons_self⟩
  obtain ⟨after, hafter, hworks, hlookup⟩ := hstored.answerAll hspares
  rw [Bench.run, ofService, Routine.run_expand]
  refine Action.remembered?_of_text (String.ofList (Recorded.json record)) ?_ ?_
  · have hget : ((stored.answerAll calls).cache.answer 0 (.get key)).1 =
        .ok (some (String.ofList (Recorded.json record))) := by
      simp only [hafter, CachePlace.answer, SharedCache.answer, SharedCache.note, hworks,
        Bool.false_eq_true, if_false, SharedCache.serve, hlookup]
    exact hget
  · rw [String.toList_ofList]
    exact hread

end Remote.Bench

end FishMarket
