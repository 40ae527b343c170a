import FishMarket.Proofs.Floor.Basic
import FishMarket.Proofs.Settlement.Requests

/-! # Errands

What is run at the service: commands, queries and sweeps, calls that somebody makes to the store by
hand, and requests. Calls by hand may be anything that has nothing to do with transactions.
-/

namespace FishMarket

open Calendar

/-- An errand that is run without a request. -/
inductive Errand where
  | placeBid (place : PlaceBid) (now : Instant)
  | createVenue (venue : NewVenue) (now : Instant)
  | deleteVenue (id : Int) (now : Instant)
  | createAuction (auction : NewAuction) (now : Instant)
  | updateAuctionStatus (id : Int) (status : String) (now : Instant)
  | deleteAuction (id : Int)
  | createItem (item : NewItem) (now : Instant)
  | updateItemStatus (id : Int) (status : String)
  | getVenue (id : Int)
  | getAllVenues
  | getAuction (id : Int) (now : Instant)
  | getAllAuctions (now : Instant)
  | getAuctionItems (id : Int)
  | getItem (ttl : Nat) (id : Int)
  | getItemBids (id : Int)
  | getHighestBid (id : Int)
  | getBuyer (ttl : Nat) (id : Int)
  | getFisherman (ttl : Nat) (id : Int)
  | listInvoices
  | snapshot
  | reconcile (auction : Auction) (now : Instant)
  | reconcileAll (now : Instant)
  | sweep (now : Instant)
  /-- A call to the store by hand. -/
  | direct (call : StoreCall) (hplain : call.IsPlain)

namespace Errand

/-- What an errand comes to. -/
def Outcome : Errand → Type
  | placeBid _ _ => Except Failure Bid
  | createVenue _ _ => Except Failure Venue
  | deleteVenue _ _ => Except Failure Unit
  | createAuction _ _ => Except Failure Auction
  | updateAuctionStatus _ _ _ => Except Failure Auction
  | deleteAuction _ => Except Failure Unit
  | createItem _ _ => Except Failure Item
  | updateItemStatus _ _ => Except Failure Item
  | getVenue _ => Except Failure Venue
  | getAllVenues => Except Failure (List Venue)
  | getAuction _ _ => Except Failure Auction
  | getAllAuctions _ => Except Failure (List Auction)
  | getAuctionItems _ => Except Failure (List Listing)
  | getItem _ _ => Except Failure Item
  | getItemBids _ => Except Failure (List Bid)
  | getHighestBid _ => Except Failure (Option HighestBid)
  | getBuyer _ _ => Except Failure Buyer
  | getFisherman _ _ => Except Failure Fisherman
  | listInvoices => Except Failure (List InvoiceLine)
  | snapshot => Except Failure Query.Snapshot
  | reconcile _ _ => Except Failure Auction
  | reconcileAll _ => Except Failure Nat
  | sweep _ => Unit
  | direct call _ => call.Answer

/-- The routine by which an errand is run. -/
def routine : (errand : Errand) → ServiceRoutine errand.Outcome
  | placeBid place now => (Command.placeBid place now).run
  | createVenue venue now => (Command.createVenue venue now).run
  | deleteVenue id now => (Command.deleteVenue id now).run
  | createAuction auction now => (Command.createAuction auction now).run
  | updateAuctionStatus id status now => (Command.updateAuctionStatus id status now).run
  | deleteAuction id => (Command.deleteAuction id).run
  | createItem item now => (Command.createItem item now).run
  | updateItemStatus id status => (Command.updateItemStatus id status).run
  | getVenue id => (Query.getVenue id).run
  | getAllVenues => Query.getAllVenues.run
  | getAuction id now => (Query.getAuction id now).run
  | getAllAuctions now => (Query.getAllAuctions now).run
  | getAuctionItems id => (Query.getAuctionItems id).run
  | getItem ttl id => (Query.getItem ttl id).run
  | getItemBids id => (Query.getItemBids id).run
  | getHighestBid id => (Query.getHighestBid id).run
  | getBuyer ttl id => (Query.getBuyer ttl id).run
  | getFisherman ttl id => (Query.getFisherman ttl id).run
  | listInvoices => Query.listInvoices.run
  | snapshot => Query.snapshot.run
  | reconcile auction now => (Query.reconcile auction now).run
  | reconcileAll now => (Query.reconcileAll now).run
  | sweep now => Query.sweep now
  | direct call _ => Routine.request (ServiceCall.store call)

/-- The bid that an errand has come to, if it was to place one and did. -/
def placed? : (errand : Errand) → errand.Outcome → Option Bid
  | placeBid _ _, .ok bid => some bid
  | _, _ => none

/-- The calls that an errand makes. -/
def Permits : Errand → Settlement → ServiceCall → Prop
  | placeBid place now => Settlement.Places place now
  | _ => Settlement.Idles

/-- How a settlement has to stand when an errand ends. -/
def Concludes : (errand : Errand) → Settlement → errand.Outcome → Prop
  | placeBid _ _, phase, result => phase.Concludes result
  | _, phase, _ => phase = .idle

/-- Whether an errand leaves the items, the parties and the cache alone. -/
def isQuiet : Errand → Bool
  | placeBid _ _ => false
  | deleteAuction _ => false
  | createItem _ _ => false
  | updateItemStatus _ _ => false
  | getItem _ _ => false
  | getBuyer _ _ => false
  | getFisherman _ _ => false
  | direct call _ => call.isQuiet
  | _ => true

theorem routine_quiet {errand : Errand} (hquiet : errand.isQuiet = true) :
    errand.routine.Asks ServiceCall.IsQuiet := by
  cases errand with
  | createVenue venue now => exact Command.createVenue_quiet venue now
  | deleteVenue id now => exact Command.deleteVenue_quiet id now
  | createAuction auction now => exact Command.createAuction_quiet auction now
  | updateAuctionStatus id status now => exact Command.updateAuctionStatus_quiet id status now
  | getVenue id => exact (Query.getVenue_lookup id).quiet
  | getAllVenues => exact Query.getAllVenues_lookup.quiet
  | getAuction id now => exact Query.getAuction_quiet id now
  | getAllAuctions now => exact Query.getAllAuctions_quiet now
  | getAuctionItems id => exact (Query.getAuctionItems_lookup id).quiet
  | getItemBids id => exact (Query.getItemBids_lookup id).quiet
  | getHighestBid id => exact (Query.getHighestBid_lookup id).quiet
  | listInvoices => exact Query.listInvoices_lookup.quiet
  | snapshot => exact Query.snapshot_lookup.quiet
  | reconcile auction now => exact Query.reconcile_quiet auction now
  | reconcileAll now => exact Query.reconcileAll_quiet now
  | sweep now => exact Query.sweep_quiet now
  | direct call hplain => exact ⟨hquiet, fun _ => trivial⟩
  | placeBid | deleteAuction | createItem | updateItemStatus | getItem | getBuyer | getFisherman =>
      cases hquiet

/-- Of all errands only the one that places a bid works with a transaction. -/
theorem routine_plain {errand : Errand} (herrand : ∀ place now, errand ≠ placeBid place now) :
    errand.routine.Asks ServiceCall.IsPlain := by
  cases errand with
  | placeBid place now => exact absurd rfl (herrand place now)
  | deleteAuction id => exact Command.deleteAuction_plain id
  | createItem item now => exact Command.createItem_plain item now
  | updateItemStatus id status => exact Command.updateItemStatus_plain id status
  | getItem ttl id => exact (Query.getItem_reads ttl id).plain
  | getBuyer ttl id => exact (Query.getBuyer_reads ttl id).plain
  | getFisherman ttl id => exact (Query.getFisherman_reads ttl id).plain
  | direct call hplain => exact ⟨hplain, fun _ => trivial⟩
  | _ => exact (routine_quiet rfl).plain_of_quiet

theorem permits_eq_idles {errand : Errand} (herrand : ∀ place now, errand ≠ placeBid place now) :
    errand.Permits = Settlement.Idles := by
  cases errand with
  | placeBid place now => exact absurd rfl (herrand place now)
  | _ => rfl

theorem admits (errand : Errand) (phase : Settlement) (call : ServiceCall)
    (hpermits : errand.Permits phase call) : Settlement.Admits phase call := by
  cases errand with
  | placeBid place now => exact .places hpermits
  | _ => exact Settlement.Idles.admits hpermits

/-- Every errand keeps to the protocol. -/
theorem fulfils (errand : Errand) :
    errand.routine.Fulfils (Settlement.protocol errand.Permits) errand.Concludes .idle := by
  cases errand with
  | placeBid place now => exact Command.placeBid_fulfils place now
  | _ => exact Settlement.fulfils_of_plain (routine_plain nofun)

instance : Trade Errand where
  Outcome := Outcome
  routine := routine
  Permits := Permits
  Concludes := Concludes
  admits := admits
  fulfils := fulfils

/-- When an errand ends, what it has settled is what it has come to. -/
theorem settled?_eq {errand : Errand} {phase : Settlement} {outcome : errand.Outcome}
    (hconcludes : errand.Concludes phase outcome) :
    phase.settled? = errand.placed? outcome := by
  cases errand with
  | placeBid place now =>
      cases outcome with
      | ok bid => exact congrArg Settlement.settled? (Settlement.Concludes.announced hconcludes)
      | error failure => exact congrArg Settlement.settled? (Settlement.Concludes.idle hconcludes)
  | _ => exact congrArg Settlement.settled? hconcludes

end Errand

/-- Anything that is run at the service: an errand, or a request that is answered. -/
inductive Business where
  | errand (work : Errand)
  /-- A request, with the time in milliseconds for which values are cached. -/
  | request (ttl : Nat) (now : Instant) (received : Http.Request)

namespace Business

/-- What a business comes to. -/
def Outcome : Business → Type
  | errand work => work.Outcome
  | request _ _ _ => Http.Response

instance : Trade Business where
  Outcome := Outcome
  routine
    | errand work => work.routine
    | request ttl now received => Http.respond ttl now received
  Permits
    | errand work => work.Permits
    | request _ _ _ => Settlement.Admits
  Concludes
    | errand work, phase, outcome => work.Concludes phase outcome
    | request _ _ _, _, _ => True
  admits
    | errand work => work.admits
    | request _ _ _ => fun _ _ => id
  fulfils
    | errand work => work.fulfils
    | request ttl now received => Http.respond_fulfils ttl now received

end Business

end FishMarket
