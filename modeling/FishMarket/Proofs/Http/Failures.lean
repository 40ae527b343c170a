import FishMarket.Proofs.Http.Privileges
import FishMarket.Proofs.Service.Failing

/-! # Requests that fail

A response says that a request has succeeded exactly if its handler has come to a reply. If it has
been refused instead, then either nothing has been asked of the store that writes, or the last write
was not carried out. So what is on record is the same as before, whatever the request was. Requests
without a response, because they are broken off, are left out here.
-/

namespace FishMarket

open Calendar
open Attempt (Spares Succeeds)
open ServiceRoutine (Ensures)

/-! ## What may be left in the cache -/

/-- Whether a call caches nothing, unless under the key of an item, a buyer or a fisherman. -/
def ServiceCall.CachesEntity : ServiceCall → Prop
  | .cache (.set key _ _) => ∃ entity id, key = Cache.key entity id
  | _ => True

theorem ServiceCall.IsQuiet.cachesEntity {call : ServiceCall} (hquiet : call.IsQuiet) :
    call.CachesEntity := by
  cases call with
  | store call => exact trivial
  | cache call => cases hquiet

theorem Errand.routine_cachesEntity (errand : Errand) :
    errand.routine.Asks ServiceCall.CachesEntity := by
  have hquiet (call : ServiceCall) (hcall : call.IsQuiet) : call.CachesEntity := hcall.cachesEntity
  cases errand with
  | placeBid place now =>
      refine (Command.placeBid_fulfils place now).asks fun phase call hplaces => ?_
      cases hplaces <;> exact trivial
  | deleteAuction id => exact Command.deleteAuction_asks hquiet trivial fun _ => trivial
  | createItem item now => exact Command.createItem_asks hquiet trivial
  | updateItemStatus id status =>
      exact Command.updateItemStatus_asks hquiet status (fun _ => trivial) trivial
  | getItem ttl id | getBuyer ttl id | getFisherman ttl id =>
      apply Action.lookup_asks
      exact Action.readThrough_asks trivial (Action.store_asks trivial) fun _ => ⟨_, id, rfl⟩
  | direct call _ => exact ⟨trivial, fun _ => trivial⟩
  | _ => exact (routine_quiet rfl).mono hquiet

/-- All that is new in the cache is what was cached of entities. -/
theorem Exposed.holds_run {α : Type} {routine : ServiceRoutine α} {forecast : Forecast}
    {exposed : Exposed} (hcaches : routine.Asks ServiceCall.CachesEntity) {key text : String}
    (hholds : (routine.run (answer forecast) exposed).2.cache.Holds key text) :
    exposed.cache.Holds key text ∨ ∃ entity id, key = Cache.key entity id := by
  by_cases hentity : ∃ entity id, key = Cache.key entity id
  · exact .inr hentity
  · left
    have hstep (call : ServiceCall) (state : Exposed) (hcaches : call.CachesEntity)
        (hstate : state.cache.Holds key text → exposed.cache.Holds key text) :
        (state.answer forecast call).2.cache.Holds key text → exposed.cache.Holds key text := by
      intro hheld
      apply hstate
      cases call with
      | store call => exact cache_answer_store call key text hheld
      | cache call =>
          cases call with
          | get other => exact (answer_get other).2 key text hheld
          | delete other => exact answer_delete other key text hheld
          | set other written ttl =>
              obtain ⟨entity, id, rfl⟩ := hcaches
              rcases answer_set _ _ _ hheld with ⟨hkey, -⟩ | hbefore
              · exact absurd ⟨entity, id, hkey⟩ hentity
              · exact hbefore
    exact hcaches.run hstep id hholds

namespace Http

open Handler

variable {α : Type} {market : Market} {ttl : Nat} {now : Instant} {request : Request}
  {resource : Resource}

/-- Whether a status says that a request has succeeded. -/
def isSuccess (status : Nat) : Bool :=
  200 ≤ status && status < 300

/-! ## Handlers -/

/-- Whether a handler replies that a request has succeeded, unless it has done nothing to what is on
record. -/
def Handler.Owns (handler : Handler Reply) (market : Market) : Prop :=
  Ensures (fun outcome after =>
    (∃ reply, outcome = .ok reply ∧ isSuccess reply.status = true) ∨ market.Spared after)
    handler.run market

namespace Handler.Owns

theorem extracted {extracted : Except Refusal α} {next : α → Handler Reply}
    (hnext : ∀ value, (next value).Owns market) : (extract extracted >>= next).Owns market := by
  cases extracted with
  | error refusal => exact .inr (.refl market)
  | ok value => exact hnext value

theorem replied {action : Action α} {make : α → Reply} (hspares : Spares action market)
    (hmake : ∀ value, isSuccess (make value).status = true) :
    Owns (ExceptT.mk (action.run.bind fun outcome =>
      .done ((outcome.mapError .failure).map make))) market := by
  apply Ensures.bind
  refine hspares.mono fun outcome after hspared => ?_
  cases outcome with
  | ok value => exact .inl ⟨make value, rfl, hmake value⟩
  | error failure => exact .inr (hspared.resolve_left nofun)

theorem performed {action : Action α} {make : α → Reply} (hspares : Spares action market)
    (hmake : ∀ value, isSuccess (make value).status = true) :
    (do return make (← perform action) : Handler Reply).Owns market := by
  unfold Owns
  rw [run_perform]
  exact replied hspares hmake

end Handler.Owns

theorem handle_buyerBids_owns (hconsistent : market.Consistent) :
    (handle ttl now request .buyerBids).Owns market := by
  unfold Owns
  rcases handle_buyerBids ttl now request with ⟨outcome, heq⟩ | ⟨buyer, place, -, -, heq⟩
  · rw [heq]
    exact .inr (.refl market)
  · rw [heq]
    apply Ensures.bind
    refine .of_reads (Query.getBuyer_reads ttl buyer) fun found => ?_
    cases found with
    | error failure => exact .inr (.refl market)
    | ok row => exact Owns.replied (Command.placeBid_spares place now hconsistent) fun _ => rfl

theorem handle_owns (hconsistent : market.Consistent) :
    (handle ttl now request resource).Owns market := by
  cases resource with
  | health => exact .inl ⟨_, rfl, rfl⟩
  | buyerBids => exact handle_buyerBids_owns hconsistent
  | venues => exact .performed (.of_reads Query.getAllVenues_lookup.reads) fun _ => rfl
  | venue id =>
      refine .extracted fun id => ?_
      exact .performed (.of_reads (Query.getVenue_lookup id).reads) fun _ => rfl
  | auctions => exact .performed (Query.getAllAuctions_succeeds now hconsistent).spares fun _ => rfl
  | auction id =>
      refine .extracted fun id => ?_
      exact .performed (Query.getAuction_spares id now hconsistent) fun _ => rfl
  | auctionItems id =>
      refine .extracted fun id => ?_
      exact .performed (.of_reads (Query.getAuctionItems_lookup id).reads) fun _ => rfl
  | auctionStatus id =>
      refine .extracted fun _ => .extracted fun id => .extracted fun body => ?_
      exact .performed (Command.updateAuctionStatus_spares id body.status now) fun _ => rfl
  | item id =>
      refine .extracted fun id => ?_
      exact .performed (.of_reads (Query.getItem_reads ttl id)) fun _ => rfl
  | itemBids id =>
      refine .extracted fun id => ?_
      exact .performed (.of_reads (Query.getItemBids_lookup id).reads) fun _ => rfl
  | itemHighestBid id =>
      refine .extracted fun id => ?_
      exact .performed (.of_reads (Query.getHighestBid_lookup id).reads) fun _ => rfl
  | invoices => exact .performed (.of_reads Query.listInvoices_lookup.reads) fun _ => rfl
  | buyer id =>
      refine .extracted fun id => ?_
      exact .performed (.of_reads (Query.getBuyer_reads ttl id)) fun _ => rfl
  | fisherman id =>
      refine .extracted fun id => ?_
      exact .performed (.of_reads (Query.getFisherman_reads ttl id)) fun _ => rfl
  | adminVenues =>
      refine .extracted fun _ => .extracted fun venue => ?_
      exact .performed (Command.createVenue_spares venue now) fun _ => rfl
  | adminVenue id =>
      refine .extracted fun _ => .extracted fun id => ?_
      exact .performed (Command.deleteVenue_spares id now) fun _ => rfl
  | adminAuctions =>
      refine .extracted fun _ => .extracted fun auction => ?_
      exact .performed (Command.createAuction_spares auction now) fun _ => rfl
  | adminAuction id =>
      refine .extracted fun _ => .extracted fun id => ?_
      exact .performed (Command.deleteAuction_spares id) fun _ => rfl
  | adminItems =>
      refine .extracted fun _ => .extracted fun item => ?_
      exact .performed (Command.createItem_spares item now) fun _ => rfl
  | adminItemStatus id =>
      refine .extracted fun _ => .extracted fun id => .extracted fun body => ?_
      exact .performed (Command.updateItemStatus_spares id body.status) fun _ => rfl

/-! ## Responses -/

theorem status_finish_ok (method : Method) (reply : Reply) :
    (finish method (.ok reply)).status = reply.status := by
  unfold finish
  dsimp only
  split <;> rfl

theorem respond_ensures (hconsistent : market.Consistent) :
    Ensures (fun response after => isSuccess response.status = true ∨ market.Spared after)
      (respond ttl now request) market := by
  rcases respond_cases ttl now request with ⟨response, heq⟩ | ⟨resource, -, -, heq⟩
  · rw [heq]
    exact .inr (.refl market)
  · rw [heq]
    apply Ensures.bind
    refine (handle_owns hconsistent).mono fun outcome after howns => ?_
    rcases howns with ⟨reply, rfl, hsuccess⟩ | hspared
    · left
      rw [status_finish_ok]
      exact hsuccess
    · exact .inr hspared

theorem respond_cachesEntity (ttl : Nat) (now : Instant) (request : Request) :
    (respond ttl now request).Asks ServiceCall.CachesEntity := by
  apply respond_of_errands Routine.Asks.pure Routine.Asks.bind
  exact fun errand _ _ => errand.routine_cachesEntity

/-- A request that fails leaves what is on record exactly as it was. All that it may leave behind is
a counter that has moved on and entries in the cache for items, buyers and fishermen. -/
theorem failed_requests_change_nothing (forecast : Forecast) (steps : List Market.Step)
    (cache : MemoryCache) (moment calls ttl : Nat) (now : Instant) (request : Request)
    (hfails : isSuccess ((respond ttl now request).run (Exposed.answer forecast)
      ⟨⟨Market.initial.takeAll steps, cache, moment⟩, calls⟩).1.status = false) :
    let before : Exposed := ⟨⟨Market.initial.takeAll steps, cache, moment⟩, calls⟩
    let after := ((respond ttl now request).run (Exposed.answer forecast) before).2
    before.market.Spared after.market ∧
      ∀ key text, after.cache.Holds key text →
        before.cache.Holds key text ∨ ∃ entity id, key = Cache.key entity id := by
  intro before after
  have hconsistent : before.market.Consistent := .takeAll .initial steps
  constructor
  · rcases (respond_ensures hconsistent).run forecast with hsuccess | hspared
    · rw [hfails] at hsuccess
      cases hsuccess
    · exact hspared
  · exact fun key text => Exposed.holds_run (respond_cachesEntity ttl now request)

/-- An auction with a bid is not deleted, and all stays as it is. -/
theorem refused_deletion_changes_nothing :
    let now : Instant := ⟨⟨19792⟩, default⟩
    let steps : List Market.Step := [
      .call (.createVenue ⟨"Pier", "1", ""⟩ now),
      .call (.createAuction ⟨1, ⟨19800⟩, none, none, none⟩ now),
      .call (.createFisherman "Kim" now),
      .call (.createItem ⟨2, 3, "cod", 1, "kg", none, 0⟩ now),
      .call (.createBuyer "Lee" now),
      .call .begin,
      .call (.insertBidIn 1 ⟨4, 5, 100⟩ now),
      .call (.commit 1)]
    let request : Request := ⟨.delete, "/api/admin/auctions/2", [("x-admin-id", "1")],
      .empty⟩
    let before : Exposed := ⟨⟨Market.initial.takeAll steps, .empty, 0⟩, 0⟩
    let ended := (respond 0 now request).run (Exposed.answer fun _ => ⟨0, fun _ => false, false⟩)
      before
    ended.1.status = 409 ∧ before.market.Spared ended.2.market := by
  intro now steps request before ended
  have hstatus : ended.1.status = 409 := by decide +kernel
  refine ⟨hstatus, (failed_requests_change_nothing _ steps .empty 0 0 0 now request ?_).1⟩
  exact congrArg isSuccess hstatus

end Http

end FishMarket
