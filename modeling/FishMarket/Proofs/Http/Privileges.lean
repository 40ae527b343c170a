import FishMarket.Proofs.Floor.Lifecycle
import FishMarket.Proofs.Http.Errands
import FishMarket.Proofs.Http.Routes
import FishMarket.Proofs.Service.Weather

/-! # Who may do what

Whoever is no admin can do two things to what is on record: read an auction that is overdue, which
completes it, and place a bid as the buyer who the request comes from. Neither the path nor the body
of a request makes a difference to that, and nor does what is stored or cached. A request that is
broken off near the end of the clock of the cache changes nothing at all, so this is said as if that
clock had no end.
-/

namespace FishMarket

open Calendar
open ServiceRoutine (Completes)

/-! ## Runs in any weather -/

namespace Exposed

variable {α Phase : Type} {forecast : Forecast} {exposed : Exposed} {routine : ServiceRoutine α}

/-- A call is received by the service as the weather leaves it. Only the cache may give no
answer. -/
theorem answer_cases (forecast : Forecast) (exposed : Exposed) (call : ServiceCall) :
    ∃ (before : Service) (reception : Reception), before.market = exposed.market ∧
      (exposed.answer forecast call).1 = (before.receive call reception).1 ∧
      (exposed.answer forecast call).2.market = (before.receive call reception).2.market := by
  let weather := forecast exposed.calls
  refine ⟨exposed.found weather, ?_⟩
  cases call with
  | store call => exact ⟨.answered, rfl, rfl, rfl⟩
  | cache call =>
      cases hfails : weather.fails with
      | true =>
          refine ⟨.refused (.internal .database), rfl, ?_⟩
          simp only [answer, weather, hfails, if_true]
          exact ⟨rfl, rfl⟩
      | false =>
          refine ⟨.answered, rfl, ?_⟩
          simp only [answer, weather, hfails]
          exact ⟨rfl, rfl⟩

/-- What holds of the market whatever calls of a sort are received, holds after a routine that makes
no others. -/
theorem asks_run {sort : ServiceCall → Prop} (holds : Market → Prop) (hasks : routine.Asks sort)
    (hstep : ∀ call (service : Service) reception, sort call → holds service.market →
      holds (service.receive call reception).2.market)
    (hholds : holds exposed.market) : holds (routine.run (answer forecast) exposed).2.market := by
  have hstep' (call : ServiceCall) (state : Exposed) (hsort : sort call)
      (hstate : holds state.market) : holds (state.answer forecast call).2.market := by
    obtain ⟨before, reception, hbefore, -, hafter⟩ := state.answer_cases forecast call
    rw [hafter]
    exact hstep call before reception hsort (hbefore ▸ hstate)
  exact hasks.run hstep' hholds

/-- The same for what holds in each phase of a contract. -/
theorem fulfils_run {contract : Contract ServiceCall ServiceCall.Answer Phase}
    {final : Phase → α → Prop} {phase : Phase} (holds : Phase → Market → Prop)
    (hfulfils : routine.Fulfils contract final phase)
    (hstep : ∀ phase call (service : Service) reception, contract.Permits phase call →
      holds phase service.market →
      holds (contract.next phase call (service.receive call reception).1)
        (service.receive call reception).2.market)
    (hholds : holds phase exposed.market) :
    ∃ latest, holds latest (routine.run (answer forecast) exposed).2.market := by
  have hstep' (phase : Phase) (call : ServiceCall) (state : Exposed)
      (hpermits : contract.Permits phase call) (hstate : holds phase state.market) :
      holds (contract.next phase call (state.answer forecast call).1)
        (state.answer forecast call).2.market := by
    obtain ⟨before, reception, hbefore, hanswer, hafter⟩ := state.answer_cases forecast call
    rw [hanswer, hafter]
    exact hstep phase call before reception hpermits (hbefore ▸ hstate)
  obtain ⟨latest, hlatest, -⟩ := hfulfils.run hstep' hholds
  exact ⟨latest, hlatest⟩

/-- Whoever only looks leaves the market as it is. -/
theorem market_run_of_reads (hreads : routine.Asks ServiceCall.IsReading) :
    (routine.run (answer forecast) exposed).2.market = exposed.market := by
  refine asks_run (fun market => market = exposed.market) hreads ?_ rfl
  intro call service reception hcall hmarket
  rw [Service.receive_reading hcall, hmarket]

/-- Only with a transaction can something be added to the ledger. -/
theorem ledger_run_of_plain (hplain : routine.Asks ServiceCall.IsPlain) :
    (routine.run (answer forecast) exposed).2.market.ledger = exposed.market.ledger := by
  refine asks_run (fun market => market.ledger = exposed.market.ledger) hplain ?_ rfl
  intro call service reception hcall hledger
  rw [(Settlement.change_of_plain hcall service reception).ledger_eq, hledger]

end Exposed

/-! ## Readers -/

namespace Market

/-- Whether auctions differ only in that some that were overdue have been completed since. -/
def CompletedSince (now : Instant) (before after : Market) : Prop :=
  ∀ id, after.auctions.find? id = before.auctions.find? id ∨
    ∃ auction, before.auctions.find? id = some auction ∧ auction.isOverdue now = true ∧
      after.auctions.find? id = some { auction with status := .completed, updatedAt := now }

/-- What holds while a reader reads, of what was on record at first and of what the reader has been
shown. -/
structure ReadFrom (now : Instant) (before : Market) (seen : List Auction) (market : Market) :
    Prop where
  consistent : market.Consistent
  entities : market.entities = { before.entities with auctions := market.auctions }
  auctions : before.CompletedSince now market
  seen : ∀ auction ∈ seen, market.AuctionLeads auction.id auction

namespace ReadFrom

variable {now : Instant} {before market : Market} {seen : List Auction}

theorem start (hconsistent : market.Consistent) : market.ReadFrom now [] market where
  consistent := hconsistent
  entities := rfl
  auctions _ := .inl rfl
  seen := List.forall_mem_nil _

theorem completed (hread : before.ReadFrom now seen market) {auction : Auction}
    (hmem : auction ∈ seen) (hoverdue : auction.isOverdue now = true) :
    before.ReadFrom now seen (market.completeAuction auction.id now).2 := by
  obtain ⟨hconsistent, hentities, hauctions, hseen⟩ := hread
  have hchange := market.completeAuction_change none auction.id now
  refine ⟨hconsistent.change hchange, ?_, ?_, ?_⟩
  · rw [completeAuction_eq]
    exact congrArg (fun entities : Entities =>
      { entities with auctions := market.auctions.modify auction.id (·.completed now) }) hentities
  · intro id
    rw [completeAuction_eq, Table.find?_modify]
    split
    next hsame =>
      subst hsame
      have hcompleted := hauctions auction.id
      cases hrow : market.auctions.find? auction.id with
      | none => rwa [hrow] at hcompleted
      | some row =>
          rw [hrow] at hcompleted
          cases hended : row.status.isTerminal with
          | true =>
              rw [Option.map_some, Auction.completed_of_ended hended]
              exact hcompleted
          | false =>
              -- a row that has not ended is the first one, and has the schedule that was shown
              have hschedule := ((hseen auction hmem).2 row hrow).schedule
              refine .inr ⟨row, ?_, hschedule.isOverdue hended hoverdue, ?_⟩
              · rcases hcompleted with hsame | ⟨first, -, -, hfirst⟩
                · exact hsame.symm
                · obtain rfl := Option.some.inj hfirst
                  cases hended
              · simp [Auction.completed, hended]
    next => exact hauctions id
  · intro other hother
    exact (AuctionLeads.stable other.id other).change (hseen other hother) hconsistent hchange

theorem shown (hread : before.ReadFrom now seen market) {auctions : List Auction}
    (hauctions : ∀ auction ∈ auctions, market.auctions.find? auction.id = some auction) :
    before.ReadFrom now (seen ++ auctions) market := by
  refine { hread with seen := List.forall_mem_append.mpr ⟨hread.seen, fun auction hmem => ?_⟩ }
  have hfound := hauctions auction hmem
  refine ⟨hread.consistent.auction_le_lastId hfound, fun row hrow => ?_⟩
  obtain rfl := Option.some.inj (hfound.symm.trans hrow)
  exact .refl _

/-- What the calls of a reader do. -/
theorem act (act : Act) (hread : before.ReadFrom now seen act.before.market)
    (hpermits : (Query.completion now).Permits seen act.call) :
    before.ReadFrom now ((Query.completion now).next seen act.call act.answer)
      act.after.market := by
  have hshown := hread.shown fun auction => act.find?_shown hread.consistent
  rcases hpermits with hreads | ⟨auction, hmem, hoverdue, hcall⟩
  · have hmarket : act.after.market = act.before.market :=
      act.before.receive_reading hreads act.reception
    rw [hmarket]
    exact hshown
  · obtain ⟨call, reception, service⟩ := act
    obtain rfl : call = _ := hcall
    cases reception with
    | refused failure => exact hshown
    | answered => exact hshown.completed (List.mem_append_left _ hmem) hoverdue

end ReadFrom

end Market

variable {α : Type} {forecast : Forecast} {exposed : Exposed} {now : Instant}

/-- A reader completes auctions that are overdue, and does nothing else to what is on record. -/
theorem ServiceRoutine.Completes.run {routine : ServiceRoutine α}
    (hcompletes : routine.Completes now []) (forecast : Forecast)
    (hconsistent : exposed.market.Consistent) :
    let after := (routine.run (Exposed.answer forecast) exposed).2.market
    after.entities = { exposed.market.entities with auctions := after.auctions } ∧
      exposed.market.CompletedSince now after := by
  obtain ⟨seen, hread⟩ := Exposed.fulfils_run (exposed.market.ReadFrom now) hcompletes
    (fun seen call service reception hpermits hread => hread.act ⟨call, reception, service⟩ hpermits)
    (.start hconsistent)
  exact ⟨hread.entities, hread.auctions⟩

/-! ## Placing a bid -/

namespace Settlement

/-- What holds while a bid is placed, of what was on record at first and of how far the settlement
has come. -/
structure PlacedFrom (place : PlaceBid) (now : Instant) (before : Market) (phase : Settlement)
    (market : Market) : Prop where
  consistent : market.Consistent
  fits : market.Fits phase
  records : ∀ bid, phase.bid? = some bid → Records place now bid
  entities : market.entities = phase.settled?.elim before.entities before.entities.settle

namespace PlacedFrom

variable {place : PlaceBid} {before : Market} {phase : Settlement} {call : ServiceCall}
  {service : Service}

theorem start {market : Market} (hconsistent : market.Consistent) :
    PlacedFrom place now market idle market where
  consistent := hconsistent
  fits := nofun
  records := nofun
  entities := rfl

/-- What the calls of a settlement do. -/
theorem receive (hplaced : PlacedFrom place now before phase service.market)
    (hplaces : Places place now phase call) (reception : Reception) :
    let reply := service.receive call reception
    PlacedFrom place now before (phase.after call reply.1) reply.2.market := by
  intro reply
  obtain ⟨hconsistent, hfits, hrecords, hentities⟩ := hplaced
  obtain ⟨hstride, hfits'⟩ := hplaces.stride hfits reception
  have hconsistent' := Service.consistent_receive hconsistent call reception
  cases hstride with
  | hidden hsame _ _ hbefore hafter hbid =>
      refine ⟨hconsistent', hfits', fun bid hstaged => hplaces.records (hbid bid hstaged), ?_⟩
      rw [hafter, hsame, hentities, hbefore]
  | settles transaction bid hphase _ hservice _ _ hafter =>
      subst hphase
      refine ⟨hconsistent', hfits', ?_, ?_⟩
      · rw [hafter]
        exact fun other hother => hrecords other hother
      · rw [hafter, hservice, hfits.entities_committed, hentities]
        rfl
  | forgets bid hphase _ hmarket _ _ hafter =>
      subst hphase
      refine ⟨hconsistent', hfits', ?_, ?_⟩
      · rw [hafter]
        exact fun other hother => hrecords other hother
      · rw [hafter, hmarket, hentities]
        rfl

end PlacedFrom

end Settlement

/-- Placing a bid does nothing to what is on record, or it puts the bid there and sells its item. -/
theorem Command.run_placeBid (forecast : Forecast) (place : PlaceBid) (now : Instant)
    (hconsistent : exposed.market.Consistent) :
    let after := ((placeBid place now).run.run (Exposed.answer forecast) exposed).2.market
    after.entities = exposed.market.entities ∨
      ∃ bid, bid.buyerId = place.buyerId ∧ exposed.market.buyers.contains bid.buyerId = true ∧
        after.entities = exposed.market.entities.settle bid := by
  obtain ⟨phase, hplaced⟩ := Exposed.fulfils_run (Settlement.PlacedFrom place now exposed.market)
    (placeBid_fulfils place now)
    (fun _ _ _ reception hplaces hplaced => hplaced.receive hplaces reception)
    (.start hconsistent)
  intro after
  cases hsettled : phase.settled? with
  | none => exact .inl (hplaced.entities.trans (by rw [hsettled]; rfl))
  | some bid =>
      have hentities : after.entities = exposed.market.entities.settle bid :=
        hplaced.entities.trans (by rw [hsettled]; rfl)
      refine .inr ⟨bid, (hplaced.records bid (Settlement.bid?_of_settled hsettled)).buyerId, ?_,
        hentities⟩
      -- the bid is on record in the end, so its buyer is, and was so before
      have hbuyers : after.buyers = exposed.market.buyers :=
        congrArg Market.Entities.buyers hentities
      rw [← hbuyers]
      apply hplaced.consistent.linked.buyer_of_bid bid
      have hledger : after.ledger = exposed.market.ledger ++ [bid] :=
        congrArg Market.Entities.ledger hentities
      change bid ∈ after.ledger
      rw [hledger]
      exact List.mem_append_right _ List.mem_cons_self

namespace Market

/-- Whether items differ only in that the item of a bid that has been added to the ledger since is
sold. -/
def SoldSince (before after : Market) : Prop :=
  ∀ id, after.items.find? id = before.items.find? id ∨
    ∃ item bid, before.items.find? id = some item ∧ bid.itemId = id ∧
      after.items.find? id = some { item with status := .sold } ∧
      after.ledger = before.ledger ++ [bid]

theorem soldSince_of_settle {before after : Market} {bid : Bid}
    (hentities : after.entities = before.entities.settle bid) : before.SoldSince after := by
  have hitems : after.items =
      before.items.modify bid.itemId fun item => { item with status := .sold } :=
    congrArg Entities.items hentities
  intro id
  rw [hitems, Table.find?_modify]
  split
  next hsame =>
    subst hsame
    cases hitem : before.items.find? bid.itemId with
    | none => exact .inl rfl
    | some item => exact .inr ⟨item, bid, rfl, rfl, rfl, congrArg Entities.ledger hentities⟩
  next => exact .inl rfl

end Market

/-! ## Senders -/

namespace Http

variable {ttl : Nat} {request : Request} {resource : Resource}

/-- Whether the first header for an id of a role holds the given one: a positive integer, with
blanks around it or not. -/
def Request.Presents (request : Request) (role : Role) (id : Int) : Prop :=
  ∃ value, request.header? role.header = some value ∧ isVisibleText value = true ∧
    Text.readInt64? (Text.trim value.toList) = some id ∧ 0 < id

theorem Request.senderId?_eq_some_iff {role : Role} {id : Int} :
    request.senderId? role = some id ↔ request.Presents role id := by
  simp only [senderId?, Presents, Option.bind_eq_bind, Option.bind_eq_some_iff,
    Option.ite_none_right_eq_some]
  constructor
  · rintro ⟨value, hvalue, hvisible, found, hfound, hpos, hid⟩
    obtain rfl := Option.some.inj hid
    exact ⟨value, hvalue, hvisible, hfound, hpos⟩
  · rintro ⟨value, hvalue, hvisible, hfound, hpos⟩
    exact ⟨value, hvalue, hvisible, id, hfound, hpos, rfl⟩

/-- The resources that are for admins only. -/
def Resource.isAdmin : Resource → Bool
  | auctionStatus _ => true
  | adminVenues => true
  | adminVenue _ => true
  | adminAuctions => true
  | adminAuction _ => true
  | adminItems => true
  | adminItemStatus _ => true
  | _ => false

/-- A resource that is for everybody can only be read, unless it is the one for bids. -/
theorem Resource.method_of_not_isAdmin (hadmin : resource.isAdmin = false)
    (hbids : resource ≠ .buyerBids) : resource.method = .get := by
  cases resource with
  | buyerBids => exact absurd rfl hbids
  | auctionStatus | adminVenues | adminVenue | adminAuctions | adminAuction | adminItems
  | adminItemStatus => cases hadmin
  | _ => rfl

/-- Whoever is no admin is refused before the path and the body are looked at. -/
theorem handle_refused (hadmin : resource.isAdmin = true)
    (hsender : request.senderId? .admin = none) :
    (handle ttl now request resource).run =
      .done (.error (.failure (.unauthorized .adminMissing))) := by
  have hrefused : request.sender .admin = .error (.failure (.unauthorized .adminMissing)) := by
    rw [Request.sender, hsender]
    rfl
  cases resource with
  | auctionStatus | adminVenues | adminVenue | adminAuctions | adminAuction | adminItems
  | adminItemStatus =>
      rw [handle, hrefused]
      rfl
  | _ => cases hadmin

/-- Whoever asks for a bid to be placed is a buyer, or nothing comes of it. -/
theorem run_handle_buyerBids (hconsistent : exposed.market.Consistent) :
    let ended := (handle ttl now request .buyerBids).run.run (Exposed.answer forecast) exposed
    ended.2.market.entities = exposed.market.entities ∨
      ∃ bid, request.Presents .buyer bid.buyerId ∧
        exposed.market.buyers.contains bid.buyerId = true ∧
        ended.2.market.entities = exposed.market.entities.settle bid := by
  intro ended
  unfold ended
  rcases handle_buyerBids ttl now request with
    ⟨outcome, heq⟩ | ⟨buyer, place, hsender, hbuyer, heq⟩
  · rw [heq]
    exact .inl rfl
  · have hfound : ((Query.getBuyer ttl buyer).run.run (Exposed.answer forecast) exposed).2.market =
        exposed.market := Exposed.market_run_of_reads (Query.getBuyer_reads ttl buyer)
    rw [heq, Routine.run_bind]
    generalize (Query.getBuyer ttl buyer).run.run (Exposed.answer forecast) exposed = found
      at hfound ⊢
    obtain ⟨failure | row, between⟩ := found
    · exact .inl (congrArg Market.entities hfound)
    · dsimp only at hfound ⊢
      rw [← hfound] at hconsistent ⊢
      rw [Routine.run_bind]
      rcases Command.run_placeBid forecast place now hconsistent with
        hsame | ⟨bid, hplaced, hknown, hentities⟩
      · exact .inl hsame
      · have hpresents := Request.senderId?_eq_some_iff.mp hsender
        rw [← hbuyer, ← hplaced] at hpresents
        exact .inr ⟨bid, hpresents, hknown, hentities⟩

/-! ## Requests -/

/-- What a request does to what is on record. -/
inductive Request.Effect (request : Request) (now : Instant) (before after : Market) : Prop where
  /-- An admin has sent it, and it has added no bid. -/
  | administers (admin : Int) (hadmin : request.Presents .admin admin)
      (hledger : after.ledger = before.ledger)
  /-- It has been read, and some auctions have been completed. -/
  | reads (hentities : after.entities = { before.entities with auctions := after.auctions })
      (hauctions : before.CompletedSince now after)
  /-- A buyer has placed a bid. -/
  | bids (bid : Bid) (hmethod : request.method = .post)
      (hpath : request.path = Resource.buyerBids.path)
      (hbuyer : request.Presents .buyer bid.buyerId)
      (hknown : before.buyers.contains bid.buyerId = true)
      (hentities : after.entities = before.entities.settle bid)

theorem Request.Effect.of_same {before after : Market} (hsame : after.entities = before.entities) :
    request.Effect now before after := by
  have hauctions : after.auctions = before.auctions := congrArg Market.Entities.auctions hsame
  refine .reads ?_ fun id => .inl ?_
  · rw [hsame, hauctions]
    rfl
  · rw [hauctions]

/-- If no admin has sent a request, it can do no more than to complete auctions and to place a
bid. -/
theorem Request.Effect.of_nobody {before after : Market} (heffect : request.Effect now before after)
    (hnobody : ∀ admin, ¬ request.Presents .admin admin) :
    after.venues = before.venues ∧ before.CompletedSince now after ∧ before.SoldSince after := by
  cases heffect with
  | administers admin hadmin => exact absurd hadmin (hnobody admin)
  | reads hentities hauctions =>
      have hitems : after.items = before.items := congrArg Market.Entities.items hentities
      refine ⟨congrArg Market.Entities.venues hentities, hauctions, fun id => .inl ?_⟩
      rw [hitems]
  | bids bid _ _ _ _ hentities =>
      have hauctions : after.auctions = before.auctions :=
        congrArg Market.Entities.auctions hentities
      refine ⟨congrArg Market.Entities.venues hentities, fun id => .inl ?_,
        Market.soldSince_of_settle hentities⟩
      rw [hauctions]

theorem handle_effect (hresource : Resource.ofPath? request.path = some resource)
    (haccepts : resource.accepts request.method = true) (hconsistent : exposed.market.Consistent) :
    let ended := (handle ttl now request resource).run.run (Exposed.answer forecast) exposed
    request.Effect now exposed.market ended.2.market := by
  intro ended
  by_cases hbids : resource = .buyerBids
  · subst hbids
    rcases run_handle_buyerBids hconsistent with hsame | ⟨bid, hbuyer, hknown, hentities⟩
    · exact .of_same hsame
    · have hmethod : request.method = .post := by
        rcases Bool.or_eq_true_iff.mp haccepts with hpost | hhead
        · exact of_decide_eq_true hpost
        · cases (Bool.and_eq_true_iff.mp hhead).2
      have hpath := (Resource.ofPath?_eq_some_iff.mp hresource).2
      exact .bids bid hmethod hpath hbuyer hknown hentities
  · cases hadmin : resource.isAdmin with
    | false =>
        have hreader : Completes (handle ttl now request resource).run now [] :=
          handle_get_completes (Resource.method_of_not_isAdmin hadmin hbids)
        obtain ⟨hentities, hauctions⟩ := hreader.run forecast hconsistent
        exact .reads hentities hauctions
    | true =>
        cases hsender : request.senderId? .admin with
        | none =>
            unfold ended
            rw [handle_refused hadmin hsender]
            exact .of_same rfl
        | some admin =>
            exact .administers admin (Request.senderId?_eq_some_iff.mp hsender)
              (Exposed.ledger_run_of_plain (handle_plain hbids))

theorem respond_effect (forecast : Forecast) (ttl : Nat) (now : Instant) (request : Request)
    (hconsistent : exposed.market.Consistent) :
    let ended := (respond ttl now request).run (Exposed.answer forecast) exposed
    request.Effect now exposed.market ended.2.market := by
  rcases respond_cases ttl now request with
    ⟨response, heq⟩ | ⟨resource, hresource, haccepts, heq⟩
  · rw [heq]
    exact .of_same rfl
  · rw [heq, Routine.run_bind]
    exact handle_effect hresource haccepts hconsistent

theorem status_finish_error (method : Method) (refusal : Refusal) :
    (finish method (.error refusal)).status = refusal.reply.status := by
  unfold finish
  dsimp only
  split <;> rfl

/-- Whoever is no admin is told so wherever only admins may go. -/
theorem respond_refused (ttl : Nat) (now : Instant) (hadmin : resource.isAdmin = true)
    (hproper : resource.IsProper) (hpath : request.path = resource.path)
    (hmethod : request.method = resource.method) (hsender : request.senderId? .admin = none) :
    ∃ response, response.status = 401 ∧ respond ttl now request = .done response := by
  have hresource : Resource.ofPath? request.path = some resource :=
    Resource.ofPath?_eq_some_iff.mpr ⟨hproper, hpath⟩
  have haccepts : resource.accepts request.method = true := by
    simp [Resource.accepts, hmethod]
  rw [respond_of_accepts hresource haccepts, handle_refused hadmin hsender]
  exact ⟨_, status_finish_error request.method _, rfl⟩

/-- Whoever is no admin can only complete auctions and place bids, and is refused wherever only
admins may go. A bid is placed by the buyer who sends the request, and in no other way. -/
theorem privileges_are_separated (forecast : Forecast) (steps : List Market.Step)
    (cache : MemoryCache) (moment calls ttl : Nat) (now : Instant) (request : Request) :
    let before : Exposed := ⟨⟨Market.initial.takeAll steps, cache, moment⟩, calls⟩
    let ended := (respond ttl now request).run (Exposed.answer forecast) before
    let after := ended.2.market
    ((∀ admin, ¬ request.Presents .admin admin) →
      after.venues = before.market.venues ∧
      before.market.CompletedSince now after ∧
      before.market.SoldSince after ∧
      ∀ resource : Resource, resource.isAdmin = true → resource.IsProper →
        request.path = resource.path → request.method = resource.method →
          ended.1.status = 401) ∧
    (after.ledger = before.market.ledger ∨
      ∃ bid, after.ledger = before.market.ledger ++ [bid] ∧
        request.method = .post ∧ request.path = "/api/buyer/bids".toList ∧
        request.Presents .buyer bid.buyerId ∧
        before.market.buyers.contains bid.buyerId = true) := by
  intro before ended after
  have heffect : request.Effect now before.market after :=
    respond_effect forecast ttl now request (.takeAll .initial steps)
  refine ⟨fun hnobody => ?_, ?_⟩
  · obtain ⟨hvenues, hauctions, hitems⟩ := heffect.of_nobody hnobody
    refine ⟨hvenues, hauctions, hitems, fun resource hadmin hproper hpath hmethod => ?_⟩
    have hsender : request.senderId? .admin = none := by
      rw [Option.eq_none_iff_forall_ne_some]
      exact fun admin hsender => hnobody admin (Request.senderId?_eq_some_iff.mp hsender)
    obtain ⟨response, hstatus, heq⟩ :=
      respond_refused ttl now hadmin hproper hpath hmethod hsender
    rw [← hstatus, show ended.1 = response from by simp only [ended, heq, Routine.run]]
  · cases heffect with
    | administers admin _ hledger => exact .inl hledger
    | reads hentities => exact .inl (congrArg Market.Entities.ledger hentities)
    | bids bid hmethod hpath hbuyer hknown hentities =>
        have hpath' : request.path = "/api/buyer/bids".toList := hpath
        exact .inr ⟨bid, congrArg Market.Entities.ledger hentities, hmethod, hpath', hbuyer, hknown⟩

-- a buyer bids while the cache is down; the buyer that the body names does not matter
example :
    let now : Instant := ⟨⟨19792⟩, default⟩
    let market := Market.initial.takeAll [
      .call (.createVenue ⟨"Pier", "1", ""⟩ now),
      .call (.createAuction ⟨1, ⟨19800⟩, none, none, none⟩ now),
      .call (.createFisherman "Kim" now),
      .call (.createItem ⟨2, 3, "cod", 1, "kg", none, 0⟩ now),
      .call (.createBuyer "Lee" now)]
    let request : Request := ⟨.post, "/api/buyer/bids",
      [("content-type", "application/json"), ("X-Buyer-Id", " 5 ")],
      "\x7b\"item_id\":4,\"price\":100,\"buyer_id\":6\x7d".toUTF8⟩
    let ended := (respond 0 now request).run (Exposed.answer fun _ => ⟨0, fun _ => false, true⟩)
      ⟨⟨market, .empty, 0⟩, 0⟩
    ended.1.status = 201 ∧ ended.2.market.ledger.map Bid.buyerId = [5] := by
  decide +kernel

end Http

end FishMarket
