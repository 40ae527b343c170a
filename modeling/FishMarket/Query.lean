import FishMarket.Service.Action

/-! # Queries

What is looked up comes from the store, except that items, buyers and fishermen are read through the
cache.

An auction that is overdue is completed when it is read, and by a sweep over all auctions from
time to time. The write is conditional, so it does not matter who comes first.
-/

namespace FishMarket.Query

open Calendar

/-! ## Completing overdue auctions -/

/-- Completes an auction if it is overdue, and returns it as it then is. -/
def reconcile (auction : Auction) (now : Instant) : Action Auction := do
  if auction.isOverdue now then
    Action.store (.completeAuction auction.id now) >>= Action.found (.auction auction.id)
  else
    return auction

/-- Completes those of the given auctions that are overdue, and counts them. -/
def completeOverdue (now : Instant) : List Auction → Action Nat
  | [] => return 0
  | auction :: rest => do
    if auction.isOverdue now then
      let _ ← Action.store (.completeAuction auction.id now)
      let count ← completeOverdue now rest
      return count + 1
    else
      completeOverdue now rest

/-- Completes all overdue auctions, and counts them. -/
def reconcileAll (now : Instant) : Action Nat := do
  let auctions ← Action.store .listOpenAuctions
  completeOverdue now auctions

/-- One sweep, which does not report a failure: the next one tries again. -/
def sweep (now : Instant) : ServiceRoutine Unit := do
  let _ ← (reconcileAll now).run

/-! ## Venues and auctions -/

/-- An auction, completed first if it is overdue. -/
def getAuction (id : Int) (now : Instant) : Action Auction := do
  let auction ← Action.store (.findAuction id) >>= Action.found (.auction id)
  reconcile auction now

/-- All auctions, each completed first if it is overdue. -/
def getAllAuctions (now : Instant) : Action (List Auction) := do
  let auctions ← Action.store .listAuctions
  auctions.mapM fun auction => reconcile auction now

/-- A venue that has not been given up. -/
def getVenue (id : Int) : Action Venue :=
  Action.store (.findVenue id) >>= Action.found (.venue id)

/-- All venues that have not been given up. -/
def getAllVenues : Action (List Venue) :=
  Action.store .listVenues

/-- The listings of an auction. The bids are always those of the store. -/
def getAuctionItems (id : Int) : Action (List Listing) := do
  let _ ← Action.store (.findAuction id) >>= Action.found (.auction id)
  Action.store (.listItemListings id)

/-! ## Items and their bids -/

/-- An item, from the cache if it is there. -/
def getItem (ttl : Nat) (id : Int) : Action Item :=
  Action.readThrough (Cache.itemKey id) (Cache.itemTtl ttl) (Action.store (.findItem id)) >>=
    Action.found (.item id)

/-- The bids on an item. -/
def getItemBids (id : Int) : Action (List Bid) := do
  let _ ← Action.store (.findItem id) >>= Action.found (.item id)
  Action.store (.listBidsForItem id)

/-- The highest bid on an item, if there is one. -/
def getHighestBid (id : Int) : Action (Option HighestBid) :=
  Action.store (.highestBid id)

/-! ## Parties and invoices -/

/-- A buyer, from the cache if it is there. -/
def getBuyer (ttl : Nat) (id : Int) : Action Buyer :=
  Action.readThrough (Cache.buyerKey id) ttl (Action.store (.findBuyer id)) >>=
    Action.found (.buyer id)

/-- A fisherman, from the cache if it is there. -/
def getFisherman (ttl : Nat) (id : Int) : Action Fisherman :=
  Action.readThrough (Cache.fishermanKey id) ttl (Action.store (.findFisherman id)) >>=
    Action.found (.fisherman id)

/-- One line for each buyer with a bid. A total that is too large fails the whole list. -/
def listInvoices : Action (List InvoiceLine) := do
  let totals ← Action.store .buyerTotals
  Action.ofExcept (totals.mapM InvoiceLine.ofTotal)

/-! ## Everything on record -/

/-- What can be seen of a store by listing it. -/
structure Snapshot where
  venues : List Venue
  auctions : List Auction
  listings : List Listing
  bids : List Bid
deriving DecidableEq, Repr

/-- Lists all venues and auctions, the items of each auction and the bids on each item. -/
def snapshot : Action Snapshot := do
  let venues ← Action.store .listVenues
  let auctions ← Action.store .listAuctions
  let listings ← auctions.mapM fun auction => Action.store (.listItemListings auction.id)
  let bids ← listings.flatten.mapM fun listing =>
    Action.store (.listBidsForItem listing.item.id)
  return { venues, auctions, listings := listings.flatten, bids := bids.flatten }

end FishMarket.Query
