import FishMarket.Proofs.Floor.Parties
import FishMarket.Proofs.Http.Privileges
import FishMarket.Proofs.Sequence.Visits
import FishMarket.Proofs.Settings
import FishMarket.Proofs.Settlement.Alone

/-! # Requests to place a bid

A request to place a bid is looked at from five sides: who sends it, what it carries, whether the
buyer is on record, whether the bid is valid, and whether the item is on record. The first thing
that is wrong decides the response, and nothing is left on record. If nothing is wrong the bid is
placed, whatever has become of the item, of its auction and of its venue. Only near the end of the
clock of the cache there may be no response, to a buyer who would have to be cached.
-/

namespace FishMarket

open Calendar

/-! ## Bodies -/

namespace Http.Request

variable {α : Type} [Recorded α] {request : Request}

/-- Whether a request carries a record: it says that its body is JSON, the body is not too long, and
the record stands at the beginning of the body. -/
structure Carries (request : Request) (record : α) : Prop where
  json : request.saysJson = true
  size : request.body.size ≤ greatestBody
  reads : Record.readFront α (Json.Bytes.characters request.body) = .ok record

theorem record_eq_ok_iff {record : α} : request.record α = .ok record ↔ request.Carries record := by
  constructor
  · intro hrecord
    unfold Request.record at hrecord
    split at hrecord
    next => cases hrecord
    next hjson =>
      split at hrecord
      next => cases hrecord
      next hsize =>
        split at hrecord
        next found hreads =>
          obtain rfl := Except.ok.inj hrecord
          exact ⟨by simpa using hjson, Nat.le_of_not_lt hsize, hreads⟩
        next => cases hrecord
        next => cases hrecord
  · rintro ⟨hjson, hsize, hreads⟩
    simp [Request.record, hjson, Nat.not_lt.mpr hsize, hreads]

theorem fault_of_record {refusal : Refusal} (hrecord : request.record α = .error refusal) :
    ∃ fault, refusal = .failure (.validation (.body fault)) := by
  unfold Request.record at hrecord
  split at hrecord
  next => exact ⟨.contentType, (Except.error.inj hrecord).symm⟩
  next =>
    split at hrecord
    next => exact ⟨.tooLong, (Except.error.inj hrecord).symm⟩
    next =>
      split at hrecord
      next => cases hrecord
      next => exact ⟨.malformed, (Except.error.inj hrecord).symm⟩
      next => exact ⟨.mismatch, (Except.error.inj hrecord).symm⟩

end Http.Request

/-! ## Bids -/

/-- If the id of the buyer is positive, a bid is refused for its item first, then for its price. -/
theorem PlaceBid.validate_mk {buyer : Int} (hbuyer : 0 < buyer) (item price : Int) :
    PlaceBid.validate ⟨item, buyer, price⟩ =
      if item ≤ 0 then .error (.validation .itemIdNotPositive)
      else if price ≤ 0 then .error (.validation .priceNotPositive)
      else .ok () := by
  rw [validate, if_neg (Int.not_le.mpr hbuyer)]

namespace Exposed

variable {forecast : Forecast} {exposed : Exposed}

/-- Whether the cache holds nothing of buyers but what is on record. -/
def KnowsBuyers (exposed : Exposed) : Prop :=
  exposed.cache.Mirrors .buyer fun id buyer => exposed.market.buyers.find? id = some buyer

namespace KnowsBuyers

/-- A buyer who is not on record is not found in any weather. -/
theorem run?_getBuyer_of_unknown (hknows : exposed.KnowsBuyers) (forecast : Forecast) (ttl : Nat)
    {id : Int} (hunknown : exposed.market.buyers.find? id = none) :
    ∃ after, (Query.getBuyer ttl id).run.run? (answer? forecast) exposed =
        (some (.error (.notFound (.buyer id))), after) ∧
      after.market = exposed.market := by
  have hloads := findBuyer_loads id
  obtain ⟨hmarket, houtcome, -⟩ := Action.run_fetch forecast id hloads hknows ttl (.buyer id)
  rcases Action.run?_fetch hloads (Cache.buyerKey id) ttl (.buyer id) forecast exposed with
    hrun | ⟨⟨buyer, hbuyer⟩, -⟩
  · refine ⟨_, hrun.trans ?_, hmarket⟩
    rcases houtcome with hsame | ⟨row, hrow, -⟩
    · rw [hunknown] at hsame
      exact Prod.ext (congrArg some hsame) rfl
    · rw [hunknown] at hrow
      cases hrow
  · rw [hunknown] at hbuyer
    cases hbuyer

/-- A buyer who is on record is found in any weather, unless whoever looks is broken off. -/
theorem run?_getBuyer_of_known (hknows : exposed.KnowsBuyers) (forecast : Forecast) (ttl : Nat)
    {id : Int} (hknown : exposed.market.buyers.contains id = true) :
    let ended := (Query.getBuyer ttl id).run.run? (answer? forecast) exposed
    (∃ buyer after, ended = (some (.ok buyer), after) ∧ after.market = exposed.market) ∨
      ∃ after, ended = (none, after) ∧ exposed.Intact ttl after := by
  have hloads := findBuyer_loads id
  obtain ⟨row, hrow⟩ := Table.contains_iff.mp hknown
  obtain ⟨hmarket, houtcome, -⟩ := Action.run_fetch forecast id hloads hknows ttl (.buyer id)
  rcases Action.run?_fetch hloads (Cache.buyerKey id) ttl (.buyer id) forecast exposed with
    hrun | ⟨-, hbroken⟩
  · left
    rcases houtcome with hsame | ⟨-, -, read, -, hread⟩
    · rw [hrow] at hsame
      exact ⟨row, _, hrun.trans (Prod.ext (congrArg some hsame) rfl), hmarket⟩
    · exact ⟨read, _, hrun.trans (Prod.ext (congrArg some hread) rfl), hmarket⟩
  · exact .inr hbroken

end KnowsBuyers

end Exposed

/-! ## Answers -/

namespace Http

section

variable {forecast : Forecast} {exposed : Exposed} {ttl : Nat} {now : Instant} {request : Request}

theorem Request.sender_of_presents {role : Role} {id : Int} (hpresents : request.Presents role id) :
    request.sender role = .ok id := by
  rw [sender, senderId?_eq_some_iff.mpr hpresents]

/-- Whether a request asks for a bid to be placed. -/
structure Request.PostsBid (request : Request) : Prop where
  method : request.method = .post
  path : request.path = "/api/buyer/bids".toList

/-- Whether a response says why a request was refused, and nothing of it has been left on record. -/
structure IsRefused (ended : Option Response × Exposed) (before : Market) (status : Nat)
    (cause : Failure) : Prop where
  status : ended.1.map Response.status = some status
  response : ended.1 = some ((Refusal.failure cause).reply.toResponse [])
  entities : ended.2.market.entities = before.entities

/-- Whether a response shows a bid, and the bid has been put on record and its item has been
sold. -/
structure IsPlaced (ended : Option Response × Exposed) (before : Market) (bid : Bid) : Prop where
  status : ended.1.map Response.status = some 201
  body : ended.1.map Response.body = some (String.ofList (Recorded.json bid))
  new : ¬ before.Denotes bid.id
  ledger : ended.2.market.ledger = before.ledger ++ [bid]
  item : ∃ item, before.items.find? bid.itemId = some item ∧
    ended.2.market.items.find? bid.itemId = some { item with status := .sold }
  entities : ended.2.market.entities = before.entities.settle bid

/-- Whether there is no response, for want of time on the clock of the cache, and nothing has been
left on record. -/
structure IsBrokenOff (ended : Option Response × Exposed) (before : Market) (ttl : Nat) : Prop where
  response : ended.1 = none
  entities : ended.2.market.entities = before.entities
  ends : ended.2.EndsWithin ttl

namespace Request.PostsBid

/-- The response is made of what comes of the request for the resource of bids. -/
theorem respond_run? (hposts : request.PostsBid) (forecast : Forecast) (exposed : Exposed)
    (ttl : Nat) (now : Instant) :
    (respond ttl now request).run? (Exposed.answer? forecast) exposed =
      match (handle ttl now request .buyerBids).run.run? (Exposed.answer? forecast) exposed with
      | (some outcome, after) => (some (finish .post outcome), after)
      | (none, after) => (none, after) := by
  have hresource : Resource.ofPath? request.path = some .buyerBids := hposts.path ▸ rfl
  have haccepts : Resource.buyerBids.accepts request.method = true := hposts.method ▸ rfl
  rw [respond_of_accepts hresource haccepts, Routine.run?_bind, hposts.method]
  rcases (handle ttl now request .buyerBids).run.run? (Exposed.answer? forecast) exposed with
    ⟨_ | outcome, after⟩ <;> rfl

theorem isRefused (hposts : request.PostsBid) {cause : Failure} {after : Exposed}
    (hrun : (handle ttl now request .buyerBids).run.run? (Exposed.answer? forecast) exposed =
      (some (.error (.failure cause)), after))
    (hentities : after.market.entities = exposed.market.entities) :
    IsRefused ((respond ttl now request).run? (Exposed.answer? forecast) exposed) exposed.market
      cause.kind.status cause := by
  rw [hposts.respond_run?, hrun]
  exact ⟨rfl, rfl, hentities⟩

theorem refused_of_nobody (hposts : request.PostsBid)
    (hnobody : ∀ buyer, ¬ request.Presents .buyer buyer) :
    IsRefused ((respond ttl now request).run? (Exposed.answer? forecast) exposed) exposed.market
      401 (.unauthorized .buyerMissing) := by
  have hsender : request.sender .buyer = .error (.failure (.unauthorized .buyerMissing)) := by
    have hnone : request.senderId? .buyer = none :=
      Option.eq_none_iff_forall_ne_some.mpr fun buyer hsome =>
        hnobody buyer (Request.senderId?_eq_some_iff.mp hsome)
    rw [Request.sender, hnone]
    rfl
  have hrun : (handle ttl now request .buyerBids).run.run? (Exposed.answer? forecast) exposed =
      (some (.error (.failure (.unauthorized .buyerMissing))), exposed) := by
    rw [handle_buyerBids_of_nobody ttl now hsender]
    rfl
  exact hposts.isRefused hrun rfl

section

variable {buyer : Int} {body : BidRequest}

theorem refused_of_no_body (hposts : request.PostsBid) (hpresents : request.Presents .buyer buyer)
    (hunread : ∀ body : BidRequest, ¬ request.Carries body) :
    ∃ fault, IsRefused ((respond ttl now request).run? (Exposed.answer? forecast) exposed)
      exposed.market 400 (.validation (.body fault)) := by
  cases hbody : request.record BidRequest with
  | ok body => exact absurd (record_eq_ok_iff.mp hbody) (hunread body)
  | error refusal =>
      obtain ⟨fault, rfl⟩ := fault_of_record hbody
      have hrun : (handle ttl now request .buyerBids).run.run? (Exposed.answer? forecast) exposed =
          (some (.error (.failure (.validation (.body fault)))), exposed) := by
        rw [handle_buyerBids_of_no_body ttl now (sender_of_presents hpresents) hbody]
        rfl
      exact ⟨fault, hposts.isRefused hrun rfl⟩

theorem refused_of_unknown (hposts : request.PostsBid) (hknows : exposed.KnowsBuyers)
    (hpresents : request.Presents .buyer buyer) (hcarries : request.Carries body)
    (hunknown : exposed.market.buyers.find? buyer = none) :
    IsRefused ((respond ttl now request).run? (Exposed.answer? forecast) exposed) exposed.market
      401 (.unauthorized .buyerUnknown) := by
  obtain ⟨between, hfound, hmarket⟩ := hknows.run?_getBuyer_of_unknown forecast ttl hunknown
  have hrun : (handle ttl now request .buyerBids).run.run? (Exposed.answer? forecast) exposed =
      (some (.error (.failure (.unauthorized .buyerUnknown))), between) := by
    rw [handle_buyerBids_of_ok ttl now (sender_of_presents hpresents)
      (record_eq_ok_iff.mpr hcarries), Routine.run?_bind, hfound]
    rfl
  exact hposts.isRefused hrun (congrArg Market.entities hmarket)

/-- For a buyer who is on record, what becomes of the request is what becomes of the bid alone,
unless the request is broken off. -/
theorem handle_run?_of_known (hknows : exposed.KnowsBuyers) (forecast : Forecast) (ttl : Nat)
    (now : Instant) (hpresents : request.Presents .buyer buyer) (hcarries : request.Carries body)
    (hknown : exposed.market.buyers.contains buyer = true) :
    let ended := (handle ttl now request .buyerBids).run.run? (Exposed.answer? forecast) exposed
    let alone := (Command.placeBid ⟨body.itemId, buyer, body.price⟩ now).run.run Market.alone
      exposed.market
    (∃ after, ended = (some ((alone.1.mapError .failure).map created), after) ∧
        after.market = alone.2) ∨
      ∃ after, ended = (none, after) ∧ exposed.Intact ttl after := by
  dsimp only
  rw [handle_buyerBids_of_ok ttl now (sender_of_presents hpresents)
    (record_eq_ok_iff.mpr hcarries), Routine.run?_bind]
  rcases hknows.run?_getBuyer_of_known forecast ttl hknown with
    ⟨row, between, hfound, hmarket⟩ | ⟨after, hbroken, hintact⟩
  · have hforgets := Command.placeBid_forgets ⟨body.itemId, buyer, body.price⟩ now
    obtain ⟨houtcome, hafter, -⟩ := hforgets.run forecast between
    rw [hmarket] at houtcome hafter
    refine .inl ⟨_, ?_, hafter⟩
    rw [hfound]
    dsimp only
    rw [Routine.run?_bind, hforgets.run?, houtcome]
    rfl
  · rw [hbroken]
    exact .inr ⟨after, rfl, hintact⟩

theorem isBrokenOff (hposts : request.PostsBid) {after : Exposed}
    (hrun : (handle ttl now request .buyerBids).run.run? (Exposed.answer? forecast) exposed =
      (none, after))
    (hintact : exposed.Intact ttl after) :
    IsBrokenOff ((respond ttl now request).run? (Exposed.answer? forecast) exposed) exposed.market
      ttl := by
  rw [hposts.respond_run?, hrun]
  exact ⟨rfl, congrArg Market.entities hintact.market, hintact.ends⟩

theorem isPlaced (hposts : request.PostsBid) {bid : Bid} {after : Exposed}
    (hrun : (handle ttl now request .buyerBids).run.run? (Exposed.answer? forecast) exposed =
      (some (.ok (created bid)), after))
    (hentities : after.market.entities = exposed.market.entities.settle bid)
    (hnew : ¬ exposed.market.Denotes bid.id)
    (hitem : exposed.market.items.contains bid.itemId = true) :
    IsPlaced ((respond ttl now request).run? (Exposed.answer? forecast) exposed) exposed.market
      bid := by
  rw [hposts.respond_run?, hrun]
  obtain ⟨item, hfound⟩ := Table.contains_iff.mp hitem
  have hitems : after.market.items =
      exposed.market.items.modify bid.itemId fun item => { item with status := .sold } :=
    congrArg Market.Entities.items hentities
  refine ⟨rfl, rfl, hnew, congrArg Market.Entities.ledger hentities, ⟨item, hfound, ?_⟩, hentities⟩
  rw [hitems, Table.find?_modify_of_found hfound]
  exact if_pos rfl

end

end Request.PostsBid

end

/-! ## Responses -/

/-- How a request to place a bid is answered, whatever has happened at the service before. The first
line that applies decides: there is no proper id of a buyer, there is no proper body, the buyer is
not on record, the bid is not valid, the item is not on record. Otherwise the bid is placed. Near
the end of the clock of the cache a request of a buyer who is on record may be broken off
instead. -/
theorem bids_are_answered (moves : List (Move Business)) (forecast : Forecast) (calls ttl : Nat)
    (now : Instant) (request : Request) (hposts : request.PostsBid)
    (hwilling : ((Floor.initial : Floor Business).play moves).market.refuseNextBid = false) :
    let before : Exposed := ⟨((Floor.initial : Floor Business).play moves).service, calls⟩
    let market := before.market
    let ended := (respond ttl now request).run? (Exposed.answer? forecast) before
    ((∀ buyer, ¬ request.Presents .buyer buyer) →
      IsRefused ended market 401 (.unauthorized .buyerMissing)) ∧
    ∀ buyer, request.Presents .buyer buyer →
      ((∀ body : BidRequest, ¬ request.Carries body) →
        ∃ fault, IsRefused ended market 400 (.validation (.body fault))) ∧
      ∀ body : BidRequest, request.Carries body →
        (market.buyers.contains buyer = false →
          IsRefused ended market 401 (.unauthorized .buyerUnknown)) ∧
        (market.buyers.contains buyer = true → IsBrokenOff ended market ttl ∨
          (body.itemId ≤ 0 → IsRefused ended market 400 (.validation .itemIdNotPositive)) ∧
          (0 < body.itemId → body.price ≤ 0 →
            IsRefused ended market 400 (.validation .priceNotPositive)) ∧
          (0 < body.itemId → 0 < body.price →
            (market.items.contains body.itemId = false →
              IsRefused ended market 404 (.notFound (.item body.itemId))) ∧
            (market.items.contains body.itemId = true →
              IsPlaced ended market (market.nextBid ⟨body.itemId, buyer, body.price⟩ now)))) := by
  intro before market ended
  have hknows : before.KnowsBuyers := Floor.buyers_mirrored moves
  have hnumbered : market.Numbered := (Orderly.initial.play moves).consistent.numbered
  refine ⟨hposts.refused_of_nobody, fun buyer hpresents => ?_⟩
  refine ⟨hposts.refused_of_no_body hpresents, fun body hcarries => ?_⟩
  refine ⟨fun hunknown => ?_, fun hknown => ?_⟩
  · refine hposts.refused_of_unknown hknows hpresents hcarries ?_
    simpa [Table.contains] using hunknown
  · let place : PlaceBid := ⟨body.itemId, buyer, body.price⟩
    rcases Request.PostsBid.handle_run?_of_known hknows forecast ttl now hpresents hcarries hknown
      with ⟨after, hrun, hmarket⟩ | ⟨after, hrun, hintact⟩
    · right
      obtain ⟨-, -, -, -, hbuyer⟩ := id hpresents
      have hvalidate := PlaceBid.validate_mk hbuyer body.itemId body.price
      have hrefused {cause : Failure} {left : Market}
          (halone : (Command.placeBid place now).run.run Market.alone market =
            (.error cause, left))
          (hentities : left.entities = market.entities) :
          IsRefused ended market cause.kind.status cause := by
        rw [halone] at hrun hmarket
        exact hposts.isRefused hrun (hmarket ▸ hentities)
      refine ⟨fun hitem => ?_, fun hitem hprice => ?_, fun hitem hprice => ?_⟩
      · rw [if_pos hitem] at hvalidate
        exact hrefused (Command.placeBid_alone_of_invalid hvalidate) rfl
      · rw [if_neg (Int.not_le.mpr hitem), if_pos hprice] at hvalidate
        exact hrefused (Command.placeBid_alone_of_invalid hvalidate) rfl
      · rw [if_neg (Int.not_le.mpr hitem), if_neg (Int.not_le.mpr hprice)] at hvalidate
        constructor
        · intro hmissing
          exact hrefused (Command.placeBid_alone_of_missing hvalidate hmissing) rfl
        · intro hpresent
          obtain ⟨left, halone, hentities⟩ :=
            Command.placeBid_alone hvalidate hpresent hknown hwilling
          rw [halone] at hrun hmarket
          refine hposts.isPlaced hrun (hmarket ▸ hentities) (fun hdenotes => ?_) hpresent
          exact hnumbered.nextId_notMem (List.mem_append_left _ hdenotes)
    · exact .inl (hposts.isBrokenOff hrun hintact)

namespace Cancelled

def now : Instant :=
  ⟨⟨19792⟩, default⟩

/-- An item and a buyer are there, the auction of the item has been cancelled, and its venue has
been given up. -/
def moves : List (Move Business) := [
  .enter (.errand (.direct (.createVenue ⟨"Pier", "1", ""⟩ now) ⟨nofun, rfl⟩)),
  .serve 0 .answered,
  .enter (.errand (.direct (.createAuction ⟨1, ⟨19800⟩, none, none, none⟩ now) ⟨nofun, rfl⟩)),
  .serve 1 .answered,
  .enter (.errand (.direct (.createFisherman "Kim" now) ⟨nofun, rfl⟩)), .serve 2 .answered,
  .enter (.errand (.direct (.createItem ⟨2, 3, "cod", 1, "kg", none, 0⟩ now) ⟨nofun, rfl⟩)),
  .serve 3 .answered,
  .enter (.errand (.direct (.createBuyer "Lee" now) ⟨nofun, rfl⟩)), .serve 4 .answered,
  .enter (.errand (.direct (.updateAuctionStatus 2 .cancelled now) ⟨nofun, rfl⟩)),
  .serve 5 .answered,
  .enter (.errand (.direct (.softDeleteVenue 1 now) ⟨nofun, rfl⟩)), .serve 6 .answered]

def before : Exposed :=
  ⟨((Floor.initial : Floor Business).play moves).service, 0⟩

/-- The buyer bids on the item. -/
def request : Request :=
  ⟨.post, "/api/buyer/bids", [("content-type", "application/json"), ("X-Buyer-Id", " 5 ")],
    "\x7b\"item_id\":4,\"price\":100\x7d".toUTF8⟩

theorem posts : request.PostsBid :=
  ⟨rfl, by decide +kernel⟩

theorem presents : request.Presents .buyer 5 :=
  ⟨" 5 ", by decide +kernel, by decide +kernel, by decide +kernel, by decide⟩

theorem carries : request.Carries (⟨4, 100⟩ : BidRequest) :=
  ⟨by decide +kernel, by decide +kernel, by decide +kernel⟩

def sunny : Forecast :=
  fun _ => ⟨0, fun _ => false, false⟩

end Cancelled

/-- A bid is placed although the auction has been cancelled and the venue given up. -/
theorem bid_is_placed_after_cancellation :
    let ended := (respond 0 Cancelled.now Cancelled.request).run?
      (Exposed.answer? Cancelled.sunny) Cancelled.before
    Cancelled.before.market.listVenues = [] ∧
      (Cancelled.before.market.auctions.find? 2).map Auction.status = some .cancelled ∧
      IsPlaced ended Cancelled.before.market ⟨6, 4, 5, 100, Cancelled.now⟩ := by
  obtain ⟨-, hlines⟩ := bids_are_answered Cancelled.moves Cancelled.sunny 0 0 Cancelled.now
    Cancelled.request Cancelled.posts (by decide +kernel)
  have hknown := ((hlines 5 Cancelled.presents).2 _ Cancelled.carries).2 (by decide +kernel)
  obtain ⟨-, -, hvalid⟩ := hknown.resolve_left fun hbroken => by
    exact absurd hbroken.ends (by decide +kernel)
  have hbid : Cancelled.before.market.nextBid ⟨4, 5, 100⟩ Cancelled.now =
      ⟨6, 4, 5, 100, Cancelled.now⟩ := by decide +kernel
  refine ⟨by decide +kernel, by decide +kernel, ?_⟩
  rw [← hbid]
  exact (hvalid (by decide) (by decide)).2 (by decide +kernel)

/-- Not with all settings that are accepted is every valid bid placed on an item that is there. -/
theorem bid_is_not_placed_with_all_settings :
    ¬ ∀ (lookup : String → Option String) (settings : Settings),
      Settings.ofVariables lookup = .ok settings → settings.redisUrl? = none →
      ∀ (moves : List (Move Business)) (calls : Nat) (now : Instant) (request : Request)
        (buyer : Int) (body : BidRequest),
        let before : Exposed := ⟨((Floor.initial : Floor Business).play moves).service, calls⟩
        request.PostsBid → before.market.refuseNextBid = false →
        request.Presents .buyer buyer → request.Carries body →
        before.market.buyers.contains buyer = true → 0 < body.itemId → 0 < body.price →
        before.market.items.contains body.itemId = true →
        IsPlaced ((respond settings.cacheTtl now request).run? (Exposed.answer? Cancelled.sunny)
            before)
          before.market (before.market.nextBid ⟨body.itemId, buyer, body.price⟩ now) := by
  intro hplaced
  let settings := Settings.kept 9223372036854775808
  have hended := hplaced _ settings Settings.ofVariables_keeping rfl Cancelled.moves 0
    Cancelled.now Cancelled.request 5 ⟨4, 100⟩ Cancelled.posts (by decide +kernel)
    Cancelled.presents Cancelled.carries (by decide +kernel) (by decide) (by decide)
    (by decide +kernel)
  have hbroken : ((respond settings.cacheTtl Cancelled.now Cancelled.request).run?
      (Exposed.answer? Cancelled.sunny) Cancelled.before).1.map Response.status = none := by
    decide +kernel
  cases hbroken.symm.trans hended.status

end Http

end FishMarket
