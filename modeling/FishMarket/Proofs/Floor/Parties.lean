import FishMarket.Proofs.Floor.Tasks
import FishMarket.Proofs.Http.Errands
import FishMarket.Proofs.Sequence.Forgetting

/-! # Buyers that are cached

Whatever is left in the cache is a row that whoever leaves it there has just been shown by the
store. By then the row of an item may be out of date, but that of a buyer cannot be: nobody changes
or deletes a buyer. So however the calls of all tasks are interleaved, what is cached of a buyer is
what is on record.
-/

namespace FishMarket

/-! ## Whoever leaves something in the cache -/

/-- The key and the text under which a row that was found may be cached. -/
def Cache.entry? {α : Type} [Recorded α] (entity : Cache.Entity) (id : Int) (found? : Option α) :
    Option (String × String) :=
  found?.map fun row => (Cache.key entity id, String.ofList (Recorded.json row))

theorem Cache.entry?_eq_some {α : Type} [Recorded α] {entity : Cache.Entity} {id : Int}
    {found? : Option α} {key text : String} (hentry : entry? entity id found? = some (key, text)) :
    ∃ row, found? = some row ∧ key = Cache.key entity id ∧
      text = String.ofList (Recorded.json row) := by
  obtain ⟨row, hrow, heq⟩ := Option.map_eq_some_iff.mp hentry
  obtain ⟨rfl, rfl⟩ := Prod.mk.inj heq
  exact ⟨row, hrow, rfl, rfl⟩

namespace ServiceCall

/-- The row that an answer shows, as it may be cached. -/
def shown? : (call : ServiceCall) → call.Answer → Option (String × String)
  | .store (.findItem id), .ok found? => Cache.entry? .item id found?
  | .store (.findBuyer id), .ok found? => Cache.entry? .buyer id found?
  | .store (.findFisherman id), .ok found? => Cache.entry? .fisherman id found?
  | _, _ => none

/-- Whether a call leaves nothing in the cache but what has been shown. -/
def CachesShown (shown : Option (String × String)) : ServiceCall → Prop
  | .cache (.set key text _) => shown = some (key, text)
  | _ => True

end ServiceCall

/-- The contract under which a row is left in the cache only right after it was shown. -/
def showing : Contract ServiceCall ServiceCall.Answer (Option (String × String)) where
  Permits := ServiceCall.CachesShown
  next _ call answer := call.shown? answer

variable {α : Type}

/-- Whether a routine leaves nothing in the cache but what it was shown just before, be it alone or
after another. -/
def ServiceRoutine.CachesShown (routine : ServiceRoutine α) : Prop :=
  ∀ shown, routine.Fulfils showing (fun _ _ => True) shown

namespace ServiceRoutine.CachesShown

theorem done (value : α) : CachesShown (.done value) := fun _ => trivial

theorem bind {β : Type} {routine : ServiceRoutine α} {next : α → ServiceRoutine β}
    (hfirst : routine.CachesShown) (hnext : ∀ value, (next value).CachesShown) :
    CachesShown (routine.bind next) :=
  fun shown => (hfirst shown).bind fun latest value _ => hnext value latest

theorem of_forgets {routine : ServiceRoutine α} (hforgets : routine.Forgets) :
    routine.CachesShown := by
  induction routine with
  | done value => exact fun _ => trivial
  | ask call next ih =>
      intro shown
      cases call with
      | store call => exact ⟨trivial, fun answer => ih answer (hforgets answer) _⟩
      | cache call =>
          cases call with
          | get | set => exact hforgets.elim
          | delete key =>
              -- whatever the cache answers, the routine goes on in the same way
              refine ⟨trivial, fun answer => ?_⟩
              rw [hforgets.1 answer]
              exact ih _ hforgets.2 _

/-- Whoever fetches a row caches it as soon as it is shown. -/
theorem fetch [Recorded α] {key : String} {ttl : Nat} {load : Action (Option α)}
    {subject : Subject}
    (hload : ∀ shown, load.run.Fulfils showing
      (fun latest loaded => ∀ record, loaded = .ok (some record) →
        latest = some (key, String.ofList (Recorded.json record))) shown) :
    CachesShown (Action.readThrough key ttl load >>= Action.found subject).run := by
  intro shown
  rw [Action.readThrough_found_run]
  refine ⟨trivial, fun answer => ?_⟩
  dsimp only
  split
  next => exact trivial
  next =>
    refine (hload _).bind fun latest loaded hshown => ?_
    rcases loaded with failure | _ | record
    · exact trivial
    · exact trivial
    · exact ⟨hshown record rfl, fun _ => trivial⟩

end ServiceRoutine.CachesShown

theorem Errand.caches_shown (errand : Errand) : errand.routine.CachesShown := by
  cases hreads : errand.readsThrough with
  | false => exact .of_forgets (Errand.routine_forgets hreads)
  | true =>
      cases errand with
      | getItem | getBuyer | getFisherman =>
          refine .fetch fun shown => ⟨trivial, fun answer record hfound => ?_⟩
          subst hfound
          rfl
      | _ => cases hreads

theorem Business.caches_shown (business : Business) : (Trade.routine business).CachesShown := by
  cases business with
  | errand work => exact work.caches_shown
  | request ttl now received =>
      apply Http.respond_of_errands ServiceRoutine.CachesShown.done ServiceRoutine.CachesShown.bind
      exact fun errand _ _ => errand.caches_shown

/-! ## Buyers on record -/

namespace Market

/-- Whether a text is that of a buyer on record, if the key is that of a buyer. -/
def Vouches (market : Market) (key text : String) : Prop :=
  ∀ id, key = Cache.buyerKey id →
    ∃ buyer, market.buyers.find? id = some buyer ∧ text = String.ofList (Recorded.json buyer)

theorem Vouches.stable (key text : String) : Stable fun market => market.Vouches key text where
  change hvouches hconsistent hchange id hkey := by
    obtain ⟨buyer, hbuyer, htext⟩ := hvouches id hkey
    exact ⟨buyer, (buyer_stable id buyer).change hbuyer hconsistent hchange, htext⟩
  committed hvouches hconsistent hready id hkey := by
    obtain ⟨buyer, hbuyer, htext⟩ := hvouches id hkey
    exact ⟨buyer, (buyer_stable id buyer).committed hbuyer hconsistent hready, htext⟩

end Market

/-- What the store shows of a buyer is on record. -/
theorem Act.vouches_of_shown {act : Act} {key text : String}
    (hshown : act.call.shown? act.answer = some (key, text)) :
    act.before.market.Vouches key text := by
  obtain ⟨call, reception, before⟩ := act
  intro id hkey
  cases reception with
  | refused failure => rcases call with (_ | _) | _ <;> cases hshown
  | answered =>
      cases call with
      | cache call => cases hshown
      | store call =>
          -- only a buyer has the key of one
          cases call
          case findBuyer other =>
            obtain ⟨buyer, hbuyer, rfl, rfl⟩ := Cache.entry?_eq_some hshown
            obtain rfl := (Cache.key_injective hkey).2
            exact ⟨buyer, hbuyer, rfl⟩
          case findItem other =>
            obtain ⟨item, -, rfl, -⟩ := Cache.entry?_eq_some hshown
            cases (Cache.key_injective hkey).1
          case findFisherman other =>
            obtain ⟨fisherman, -, rfl, -⟩ := Cache.entry?_eq_some hshown
            cases (Cache.key_injective hkey).1
          all_goals cases hshown

namespace Service

/-- What the cache holds after a call it held before, or it is left there by the call. -/
theorem holds_receive {service : Service} {call : ServiceCall} {reception : Reception}
    {key text : String}
    (hholds : (service.receive call reception).2.cache.Holds key text) :
    service.cache.Holds key text ∨ ∃ ttl, call = .cache (.set key text ttl) := by
  cases reception with
  | refused failure => cases call <;> exact .inl hholds
  | answered =>
      cases call with
      | store call => exact .inl hholds
      | cache call =>
          cases call with
          | get key => exact .inl hholds
          | set other kept ttl =>
              rcases MemoryCache.holds_insert hholds with ⟨rfl, rfl⟩ | hbefore
              · exact .inr ⟨ttl, rfl⟩
              · exact .inl hbefore
          | delete other => exact .inl (MemoryCache.erase_within _ other key text hholds)

end Service

/-! ## On the floor -/

namespace Floor

variable {Errand : Type} [Trade Errand] {floor : Floor Errand}

/-- Whether what is cached of buyers, and what tasks have just been shown of them, is on record. -/
structure Vouched (floor : Floor Errand) : Prop where
  consistent : floor.market.Consistent
  caches : ∀ task ∈ floor.tasks, task.course.Keeps showing (fun _ _ => True) none
  shown : ∀ task ∈ floor.tasks, ∀ key text,
    task.course.reached showing none = some (key, text) → floor.market.Vouches key text
  cached : ∀ key text, floor.service.cache.Holds key text → floor.market.Vouches key text

namespace Vouched

theorem initial : (Floor.initial : Floor Errand).Vouched where
  consistent := .initial
  caches _ hmem := absurd hmem List.not_mem_nil
  shown _ hmem := absurd hmem List.not_mem_nil
  cached key text hholds := absurd hholds (MemoryCache.not_holds_empty key text)

theorem take (hvouched : floor.Vouched)
    (hcaches : ∀ errand : Errand, (Trade.routine errand).CachesShown) (move : Move Errand) :
    (floor.take move).Vouched := by
  have hstays {key text : String} (hvouches : floor.market.Vouches key text) :
      (floor.take move).market.Vouches key text :=
    stable_take (Market.Vouches.stable key text) hvouches hvouched.consistent move
  refine ⟨consistent_take hvouched.consistent move,
    keeps_take (fun errand => hcaches errand none) hvouched.caches move, ?_, ?_⟩
  · intro task hmem key text hshown
    obtain ⟨index, hindex⟩ := List.mem_iff_getElem?.mp hmem
    rcases task_cases hindex with hsame | ⟨errand, -, -, rfl⟩ |
      ⟨errand, acts, call, next, reception, -, -, rfl⟩ | ⟨former, -, hformer, rfl⟩
    · exact hstays (hvouched.shown task (List.mem_of_getElem? hsame) key text hshown)
    · cases hshown
    · rw [Course.reached_append] at hshown
      exact hstays (Act.vouches_of_shown hshown)
    · exact hstays (hvouched.shown former (List.mem_of_getElem? hformer) key text hshown)
  · intro key text hholds
    apply hstays
    cases hact : floor.act? move with
    | none => exact hvouched.cached key text ((cache_of_idle hact).1 ▸ hholds)
    | some act =>
        obtain ⟨index, errand, acts, next, -, hfound, hbefore, hservice, -⟩ := act_cases hact
        obtain ⟨call, reception, before⟩ := act
        rw [hservice] at hholds
        rcases Service.holds_receive hholds with hheld | ⟨ttl, rfl⟩
        · exact hvouched.cached key text (hbefore ▸ hheld)
        · -- the task leaves in the cache what it was shown at its turn before
          have hmem := List.mem_of_getElem? hfound
          exact hvouched.shown _ hmem key text (hvouched.caches _ hmem).1

end Vouched

/-- Whatever is run at the service, and in whatever order the calls are made, what is cached of a
buyer is what is on record. -/
theorem buyers_mirrored (moves : List (Move Business)) :
    let floor := (Floor.initial : Floor Business).play moves
    floor.service.cache.Mirrors .buyer fun id buyer =>
      floor.market.buyers.find? id = some buyer := by
  have hvouched : ((Floor.initial : Floor Business).play moves).Vouched := by
    induction moves using List.reverseRecOn with
    | nil => exact .initial
    | append_singleton moves move ih =>
        rw [play_singleton]
        exact ih.take Business.caches_shown move
  exact fun id text hholds => hvouched.cached _ text hholds id rfl

end Floor

end FishMarket
