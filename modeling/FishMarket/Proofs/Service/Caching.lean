import FishMarket.Proofs.Service.Promises
import FishMarket.Proofs.Service.Weather

/-! # What is left in the cache

A text is handed out until it expires, is replaced or is erased. Only whoever looks for an item
leaves it in the cache, and only right after it was found in the store. Whoever deletes an auction
forgets the items that were listed before the deletion, one after the other.
-/

namespace FishMarket

/-! ## Texts that have not expired -/

namespace MemoryCache

variable {cache : MemoryCache} {moment : Nat} {key other text found : String}

theorem find?_of_le {later : Nat} (hle : moment ≤ later)
    (hfind : cache.find? later key = some text) : cache.find? moment key = some text := by
  unfold find? at hfind ⊢
  split at hfind
  next entry hlookup =>
    split at hfind
    next hvalid =>
      exact (if_pos (Nat.lt_of_le_of_lt hle hvalid)).trans hfind
    next => cases hfind
  next => cases hfind

theorem find?_erase (cache : MemoryCache) (moment : Nat) (key other : String) :
    (cache.erase key).find? moment other =
      if other = key then none else cache.find? moment other := by
  unfold find? erase
  rw [lookup_filter cache.entries (fun other => other ≠ key)]
  by_cases hsame : other = key <;> simp [hsame]

theorem find?_insert {now ttl : Nat}
    (hfind : (cache.insert now key text ttl).find? moment other = some found) :
    other = key ∧ found = text ∨ other ≠ key ∧ cache.find? moment other = some found := by
  by_cases hsame : other = key
  · subst hsame
    simp only [find?, insert, List.lookup_cons, beq_self_eq_true] at hfind
    split at hfind
    next => exact .inl ⟨rfl, (Option.some.inj hfind).symm⟩
    next => cases hfind
  · have hold : (cache.erase key).find? moment other = some found := by
      simpa only [find?, insert, List.lookup_cons, beq_false_of_ne hsame] using hfind
    rw [find?_erase, if_neg hsame] at hold
    exact .inr ⟨hsame, hold⟩

end MemoryCache

namespace Service

/-- The text that is cached of an item, if it has not expired. -/
def cachedItem? (service : Service) (id : Int) : Option String :=
  service.cache.find? service.moment (Cache.itemKey id)

/-- What is cached of an item after a call was cached before, and not deleted by the call, or the
call has left it there. -/
theorem cachedItem?_receive {service : Service} {call : ServiceCall} {reception : Reception}
    {id : Int} {text : String}
    (hcached : (service.receive call reception).2.cachedItem? id = some text) :
    service.cachedItem? id = some text ∧
        ¬ (call = .cache (.delete (Cache.itemKey id)) ∧ reception = .answered) ∨
      ∃ ttl, call = .cache (.set (Cache.itemKey id) text ttl) ∧ reception = .answered := by
  cases reception with
  | refused failure => cases call <;> exact .inl ⟨hcached, nofun⟩
  | answered =>
      cases call with
      | store call => exact .inl ⟨hcached, nofun⟩
      | cache call =>
          cases call with
          | get key => exact .inl ⟨hcached, nofun⟩
          | set key kept ttl =>
              rcases MemoryCache.find?_insert hcached with ⟨hkey, htext⟩ | ⟨-, hold⟩
              · exact .inr ⟨ttl, by rw [hkey, htext], rfl⟩
              · exact .inl ⟨hold, nofun⟩
          | delete key =>
              have herased := MemoryCache.find?_erase service.cache service.moment key
                (Cache.itemKey id)
              split at herased
              next => cases herased.symm.trans hcached
              next hother =>
                refine .inl ⟨herased.symm.trans hcached, fun ⟨hcall, _⟩ => hother ?_⟩
                cases hcall
                rfl

end Service

/-! ## Whoever leaves an item -/

namespace ServiceCall

/-- Whether a call leaves no item in the cache. -/
def CachesNoItem : ServiceCall → Prop
  | .cache (.set key _ _) => ∀ id, key ≠ Cache.itemKey id
  | _ => True

theorem IsStore.cachesNoItem {call : ServiceCall} (hstore : call.IsStore) : call.CachesNoItem := by
  cases call with
  | store call => exact trivial
  | cache call => cases hstore

/-- The item that an answer shows, with the id under which it was looked for. -/
def sighted? : (call : ServiceCall) → call.Answer → Option (Int × Item)
  | .store (.findItem id), .ok (some item) => some (id, item)
  | _, _ => none

/-- Whether a call leaves no item in the cache but the one that was sighted, as it was then. -/
def CachesOnly (sight : Option (Int × Item)) : ServiceCall → Prop
  | .cache (.set key text _) => ∀ id, key = Cache.itemKey id →
    ∃ item, sight = some (id, item) ∧ text = String.ofList (Recorded.json item)
  | _ => True

theorem CachesNoItem.cachesOnly {call : ServiceCall} (hnone : call.CachesNoItem)
    (sight : Option (Int × Item)) : call.CachesOnly sight := by
  unfold CachesOnly
  split
  next => exact fun id hkey => absurd hkey (hnone id)
  next => exact trivial

end ServiceCall

/-- The contract under which an item is left in the cache only right after it was found. -/
def sighting : Contract ServiceCall ServiceCall.Answer (Option (Int × Item)) where
  Permits := ServiceCall.CachesOnly
  next _ call answer := call.sighted? answer

theorem sighting_of_asks {α : Type} {routine : ServiceRoutine α}
    (hasks : routine.Asks ServiceCall.CachesNoItem) (sight : Option (Int × Item)) :
    routine.Fulfils sighting (fun _ _ => True) sight :=
  .of_permitted hasks fun sight _ hnone => hnone.cachesOnly sight

theorem Action.decode?_eq_some {α : Type} [Recorded α] {answer : Except CacheFault (Option String)}
    {record : α} (hdecode : decode? α answer = some record) :
    ∃ text, answer = .ok (some text) ∧ Record.readWhole α text.toList = .ok record := by
  unfold decode? at hdecode
  split at hdecode
  next text =>
    refine ⟨text, rfl, ?_⟩
    cases hread : Record.readWhole α text.toList with
    | ok read =>
        rw [hread] at hdecode
        exact congrArg _ (Option.some.inj hdecode)
    | error fault =>
        rw [hread] at hdecode
        cases hdecode
  next => cases hdecode

namespace Query

/-- How the query for an item goes on if the item is not in the cache. -/
def loadItem (ttl : Nat) (id : Int) : ServiceRoutine (Except Failure Item) :=
  .ask (.store (.findItem id)) fun answer =>
    match answer with
    | .ok (some item) =>
      .ask (.cache (.set (Cache.itemKey id) (String.ofList (Recorded.json item))
        (Cache.itemTtl ttl))) fun _ => .done (.ok item)
    | .ok none => .done (.error (.notFound (.item id)))
    | .error failure => .done (.error failure)

theorem getItem_run (ttl : Nat) (id : Int) :
    (getItem ttl id).run = .ask (.cache (.get (Cache.itemKey id))) fun answer =>
      match Action.decode? Item answer with
      | some item => .done (.ok item)
      | none => loadItem ttl id := by
  refine (Action.readThrough_found_run _ _ _ _).trans ?_
  refine congrArg (Routine.ask (ServiceCall.cache (.get (Cache.itemKey id))))
    (funext fun answer => ?_)
  cases Action.decode? Item answer with
  | some item => rfl
  | none =>
      refine congrArg (Routine.ask (ServiceCall.store (.findItem id))) (funext fun found => ?_)
      rcases found with _ | _ | _ <;> rfl

theorem getItem_sighting (ttl : Nat) (id : Int) :
    (getItem ttl id).run.Fulfils sighting (fun _ _ => True) none := by
  rw [getItem_run]
  refine ⟨trivial, fun answer => ?_⟩
  dsimp only
  split
  next => exact trivial
  next =>
    refine ⟨trivial, fun found => ?_⟩
    rcases found with failure | _ | item
    · exact trivial
    · exact trivial
    · refine ⟨fun other hkey => ⟨item, ?_, rfl⟩, fun _ => trivial⟩
      rw [← (Cache.key_injective hkey).2]
      rfl

/-! ### How far a query has come -/

/-- What may still be to come of the query for an item, if all that it has been told has some
property. -/
inductive Seeks (ttl : Nat) (id : Int) (told : Except Failure Item → Prop)
    (rest : ServiceRoutine (Except Failure Item)) : Prop where
  | begun (hrest : rest = (getItem ttl id).run)
  | missed (hrest : rest = loadItem ttl id)
  | found (item : Item) (htold : told (.ok item))
      (hrest : rest = .ask (.cache (.set (Cache.itemKey id) (String.ofList (Recorded.json item))
        (Cache.itemTtl ttl))) fun _ => .done (.ok item))
  | ended (outcome : Except Failure Item) (htold : told outcome) (hrest : rest = .done outcome)

variable {ttl : Nat} {id : Int} {told : Except Failure Item → Prop}

theorem Seeks.result {outcome : Except Failure Item} (hseeks : Seeks ttl id told (.done outcome)) :
    told outcome := by
  cases hseeks with
  | begun hrest | missed hrest | found item htold hrest => cases hrest
  | ended other htold hrest =>
      cases hrest
      exact htold

/-- A query is told what is cached of the item, or else what is stored. -/
theorem Seeks.receive {call : ServiceCall}
    {next : call.Answer → ServiceRoutine (Except Failure Item)}
    (hseeks : Seeks ttl id told (.ask call next)) (service : Service)
    (hcached : ∀ text item, service.cachedItem? id = some text →
      Record.readWhole Item text.toList = .ok item → told (.ok item))
    (hstored : told (Action.sought (.item id) (.ok (service.market.items.find? id)))) :
    Seeks ttl id told (next (service.receive call .answered).1) := by
  cases hseeks with
  | begun hrest =>
      rw [getItem_run] at hrest
      cases hrest
      dsimp only
      split
      next item hdecode =>
        obtain ⟨text, htext, hread⟩ := Action.decode?_eq_some hdecode
        exact .ended _ (hcached text item (Except.ok.inj htext) hread) rfl
      next => exact .missed rfl
  | missed hrest =>
      rw [loadItem] at hrest
      cases hrest
      simp only [Service.receive, Service.answer, Market.answer]
      cases hfound : service.market.items.find? id with
      | none =>
          rw [hfound] at hstored
          exact .ended _ hstored rfl
      | some item =>
          rw [hfound] at hstored
          exact .found item hstored rfl
  | found item htold hrest =>
      cases hrest
      exact .ended _ htold rfl
  | ended outcome htold hrest => cases hrest

/-- The query for an item makes at most three calls. -/
theorem getItem_endsWithin (ttl : Nat) (id : Int) : (getItem ttl id).run.EndsWithin 3 := by
  rw [getItem_run]
  refine ⟨by decide, fun answer => ?_⟩
  dsimp only
  split
  next => exact trivial
  next =>
    refine ⟨by decide, fun found => ?_⟩
    rcases found with failure | _ | item
    · exact trivial
    · exact trivial
    · exact ⟨by decide, fun _ => trivial⟩

end Query

/-! ## Forgetting the items of an auction -/

namespace Command

/-- The end of a deletion, by which the items of listings are forgotten. -/
def forgetAll (listings : List Listing) : ServiceRoutine (Except Failure Unit) :=
  (listings.forM fun listing => Action.forget (Cache.itemKey listing.item.id)).run

theorem forgetAll_cons (listing : Listing) (rest : List Listing) :
    forgetAll (listing :: rest) =
      .ask (.cache (.delete (Cache.itemKey listing.item.id))) fun _ => forgetAll rest :=
  rfl

/-- How a deletion goes on once the items of the auction are listed. -/
def deleteListed (id : Int) (listings : List Listing) : ServiceRoutine (Except Failure Unit) :=
  .ask (.store (.deleteAuction id)) fun answer =>
    match answer with
    | .ok _ => forgetAll listings
    | .error failure => .done (.error failure)

theorem deleteAuction_run (id : Int) :
    (deleteAuction id).run = .ask (.store (.listItemListings id)) fun answer =>
      match answer with
      | .ok listings => deleteListed id listings
      | .error failure => .done (.error failure) := by
  refine congrArg (Routine.ask (ServiceCall.store (.listItemListings id))) (funext fun answer => ?_)
  cases answer with
  | error failure => rfl
  | ok listings =>
      refine congrArg (Routine.ask (ServiceCall.store (.deleteAuction id)))
        (funext fun deleted => ?_)
      cases deleted <;> rfl

end Command

end FishMarket
