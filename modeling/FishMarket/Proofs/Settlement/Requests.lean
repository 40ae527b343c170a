import FishMarket.Http.Respond
import FishMarket.Proofs.Settlement.Protocol

/-! # Requests and the protocol

A request to place a bid looks up the buyer and then places the bid; every other request is work
without transactions. So whoever answers requests keeps to the protocol of a settlement.
-/

namespace FishMarket.Http

open Calendar
open Routine (Asks Fulfils)

variable {α : Type}

namespace Handler

theorem performOr_asks {sort : ServiceCall → Prop} {action : Action α}
    (hasks : action.run.Asks sort) (change : Failure → Failure) :
    (performOr change action).run.Asks sort :=
  hasks.bind fun _ => trivial

theorem perform_asks {sort : ServiceCall → Prop} {action : Action α}
    (hasks : action.run.Asks sort) : (perform action).run.Asks sort :=
  performOr_asks hasks id

theorem perform_fulfils {permits : Settlement → ServiceCall → Prop}
    {final : Settlement → Except Failure α → Prop} {phase : Settlement} {action : Action α}
    (hfulfils : action.run.Fulfils (Settlement.protocol permits) final phase) :
    (perform action).run.Fulfils (Settlement.protocol permits) (fun _ _ => True) phase :=
  hfulfils.bind fun _ _ _ => trivial

end Handler

open Handler

variable {ttl : Nat} {now : Instant} {request : Request} {resource : Resource}

/-- Whether nothing is written to the store for a resource. The resources of auctions are not among
these, since an auction that is read may be completed. -/
def Resource.onlyReads : Resource → Bool
  | .health => true
  | .venues => true
  | .venue _ => true
  | .auctionItems _ => true
  | .item _ => true
  | .itemBids _ => true
  | .itemHighestBid _ => true
  | .invoices => true
  | .buyer _ => true
  | .fisherman _ => true
  | _ => false

theorem handle_reads (hresource : resource.onlyReads = true) :
    (handle ttl now request resource).run.Asks ServiceCall.IsReading := by
  cases resource with
  | health => exact .returned _
  | venues => exact .andThen (perform_asks Query.getAllVenues_lookup.reads) fun _ => .returned _
  | venue id =>
      refine .andThen (.ended _) fun id => ?_
      exact .andThen (perform_asks (Query.getVenue_lookup id).reads) fun _ => .returned _
  | auctionItems id =>
      refine .andThen (.ended _) fun id => ?_
      exact .andThen (perform_asks (Query.getAuctionItems_lookup id).reads) fun _ => .returned _
  | item id =>
      refine .andThen (.ended _) fun id => ?_
      exact .andThen (perform_asks (Query.getItem_reads ttl id)) fun _ => .returned _
  | itemBids id =>
      refine .andThen (.ended _) fun id => ?_
      exact .andThen (perform_asks (Query.getItemBids_lookup id).reads) fun _ => .returned _
  | itemHighestBid id =>
      refine .andThen (.ended _) fun id => ?_
      exact .andThen (perform_asks (Query.getHighestBid_lookup id).reads) fun _ => .returned _
  | invoices => exact .andThen (perform_asks Query.listInvoices_lookup.reads) fun _ => .returned _
  | buyer id =>
      refine .andThen (.ended _) fun id => ?_
      exact .andThen (perform_asks (Query.getBuyer_reads ttl id)) fun _ => .returned _
  | fisherman id =>
      refine .andThen (.ended _) fun id => ?_
      exact .andThen (perform_asks (Query.getFisherman_reads ttl id)) fun _ => .returned _
  | _ => cases hresource

/-- Only the resource for bids works with transactions. -/
theorem handle_plain (hresource : resource ≠ .buyerBids) :
    (handle ttl now request resource).run.Asks ServiceCall.IsPlain := by
  cases resource with
  | buyerBids => exact absurd rfl hresource
  | auctions =>
      exact .andThen (perform_asks (Query.getAllAuctions_quiet now).plain_of_quiet)
        fun _ => .returned _
  | auction id =>
      refine .andThen (.ended _) fun id => ?_
      exact .andThen (perform_asks (Query.getAuction_quiet id now).plain_of_quiet)
        fun _ => .returned _
  | auctionStatus id =>
      refine .andThen (.ended _) fun _ => .andThen (.ended _) fun id => ?_
      refine .andThen (.ended _) fun body => ?_
      have hquiet := Command.updateAuctionStatus_quiet id body.status now
      exact .andThen (perform_asks hquiet.plain_of_quiet) fun _ => .returned _
  | adminVenues =>
      refine .andThen (.ended _) fun _ => .andThen (.ended _) fun venue => ?_
      exact .andThen (perform_asks (Command.createVenue_quiet venue now).plain_of_quiet)
        fun _ => .returned _
  | adminVenue id =>
      refine .andThen (.ended _) fun _ => .andThen (.ended _) fun id => ?_
      exact .andThen (perform_asks (Command.deleteVenue_quiet id now).plain_of_quiet)
        fun _ => .returned _
  | adminAuctions =>
      refine .andThen (.ended _) fun _ => .andThen (.ended _) fun auction => ?_
      exact .andThen (perform_asks (Command.createAuction_quiet auction now).plain_of_quiet)
        fun _ => .returned _
  | adminAuction id =>
      refine .andThen (.ended _) fun _ => .andThen (.ended _) fun id => ?_
      exact .andThen (perform_asks (Command.deleteAuction_plain id)) fun _ => .returned _
  | adminItems =>
      refine .andThen (.ended _) fun _ => .andThen (.ended _) fun item => ?_
      exact .andThen (perform_asks (Command.createItem_plain item now)) fun _ => .returned _
  | adminItemStatus id =>
      refine .andThen (.ended _) fun _ => .andThen (.ended _) fun id => ?_
      refine .andThen (.ended _) fun body => ?_
      exact .andThen (perform_asks (Command.updateItemStatus_plain id body.status))
        fun _ => .returned _
  | _ => exact (handle_reads rfl).plain

/-- The handler for bids looks for the buyer before it places the bid. -/
theorem handle_buyerBids_fulfils :
    (handle ttl now request .buyerBids).run.Fulfils (Settlement.protocol Settlement.Admits)
      (fun _ _ => True) .idle := by
  unfold handle
  cases request.sender .buyer with
  | error refusal => exact trivial
  | ok buyer =>
      cases request.record BidRequest with
      | error refusal => exact trivial
      | ok body =>
          change Fulfils _ _
            ((performOr unknownBuyer (Query.getBuyer ttl buyer)).run.bind _) _
          have hfound := Settlement.fulfils_of_plain
            (performOr_asks (Query.getBuyer_reads ttl buyer).plain unknownBuyer)
          refine (Settlement.fulfils_of_admits hfound fun _ _ hidles => hidles.admits).bind ?_
          rintro phase outcome rfl
          cases outcome with
          | error refusal => exact trivial
          | ok found =>
              have hplaced := Settlement.fulfils_of_admits
                (Command.placeBid_fulfils ⟨body.itemId, buyer, body.price⟩ now) fun _ _ => .places
              change Fulfils _ _ ((perform (Command.placeBid _ now)).run.bind _) _
              refine (perform_fulfils hplaced).bind fun phase outcome _ => ?_
              cases outcome <;> exact trivial

theorem handle_fulfils (ttl : Nat) (now : Instant) (request : Request) (resource : Resource) :
    (handle ttl now request resource).run.Fulfils (Settlement.protocol Settlement.Admits)
      (fun _ _ => True) .idle := by
  by_cases hresource : resource = .buyerBids
  · exact hresource ▸ handle_buyerBids_fulfils
  · exact (Settlement.fulfils_of_plain (handle_plain hresource)).mono
      (fun _ _ => Settlement.Idles.admits) rfl fun _ _ _ => trivial

/-- Whoever answers a request keeps to the protocol. -/
theorem respond_fulfils (ttl : Nat) (now : Instant) (request : Request) :
    (respond ttl now request).Fulfils (Settlement.protocol Settlement.Admits)
      (fun _ _ => True) .idle := by
  unfold respond
  dsimp only
  split
  next => exact trivial
  next =>
    split
    next => exact trivial
    next resource _ =>
      split
      next =>
        refine (handle_fulfils ttl now request resource).bind fun phase outcome _ => ?_
        cases outcome <;> exact trivial
      next => exact trivial

end FishMarket.Http
