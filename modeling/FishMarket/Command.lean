import FishMarket.Service.Action
import FishMarket.Text.Blank

/-! # Commands

Each command looks at what is stored, decides, and writes. Somebody else may have changed the store
in between, so the last word is that of the write itself.

A bid settles the sale of its item: the item becomes sold and the bid is recorded, both in one
transaction. Several bids on one item are all recorded; which one counts is decided by whoever
reads them. If anything fails the transaction is rolled back, and the failure of the step is the
one that is reported, even if the rollback fails as well.
-/

namespace FishMarket.Command

open Calendar

/-! ## Venues -/

/-- Creates a venue, which needs a name. -/
def createVenue (venue : NewVenue) (now : Instant) : Action Venue := do
  if Text.isBlankText venue.name then throw (.validation .emptyVenueName)
  Action.store (.createVenue venue now)

/-- Gives up a venue, if there are no bids on items offered there. -/
def deleteVenue (id : Int) (now : Instant) : Action Unit :=
  Action.store (.softDeleteVenue id now)

/-! ## Auctions -/

/-- Creates an auction at a venue. It may not have ended, and its end has to be after its start. -/
def createAuction (auction : NewAuction) (now : Instant) : Action Auction := do
  if let some status := auction.status? then
    if status.isTerminal then throw (.validation (.createdEnded status))
  if let (some start, some finish) := (auction.startTime?, auction.endTime?) then
    if finish ≤ start then throw (.validation .endNotAfterStart)
  let _ ← Action.store (.findVenue auction.venueId) >>= Action.found (.venue auction.venueId)
  Action.store (.createAuction auction now)

/-- Changes the status of an auction that has not ended to the one with the given name. -/
def updateAuctionStatus (id : Int) (status : String) (now : Instant) : Action Auction := do
  let status ← Action.ofExcept (AuctionStatus.parse status)
  let current ← Action.store (.findAuction id) >>= Action.found (.auction id)
  Action.ofExcept (current.status.checkTransition status)
  match ← Action.store (.updateAuctionStatus id status now) with
  | some auction => return auction
  | none =>
    let latest ← Action.store (.findAuction id) >>= Action.found (.auction id)
    throw (.conflict (.auctionEnded id latest.status))

/-- Deletes an auction and its items, and forgets the items that it had. -/
def deleteAuction (id : Int) : Action Unit := do
  let listings ← Action.store (.listItemListings id)
  Action.store (.deleteAuction id)
  listings.forM fun listing => Action.forget (Cache.itemKey listing.item.id)

/-! ## Items -/

/-- Creates an item of an auction. It needs a kind of fish, a unit and an amount, and is not yet
sold. -/
def createItem (item : NewItem) (now : Instant) : Action Item := do
  if Text.isBlankText item.fishType || Text.isBlankText item.unit then
    throw (.validation .emptyFishOrUnit)
  if item.quantity ≤ 0 then throw (.validation .quantityNotPositive)
  if item.status? = some .sold then throw (.validation .createdSold)
  let _ ← Action.store (.findAuction item.auctionId) >>= Action.found (.auction item.auctionId)
  let _ ←
    Action.store (.findFisherman item.fishermanId) >>= Action.found (.fisherman item.fishermanId)
  Action.store (.createItem item now)

/-- Changes the status of an item to the one with the given name. What is sold stays sold. -/
def updateItemStatus (id : Int) (status : String) : Action Item := do
  let status ← Action.ofExcept (ItemStatus.parse status)
  let current ← Action.store (.findItem id) >>= Action.found (.item id)
  if !current.status.allows status then throw (.conflict (.itemSold id))
  match ← Action.store (.updateItemStatus id status) with
  | some item =>
    Action.forget (Cache.itemKey id)
    return item
  | none =>
    let _ ← Action.store (.findItem id) >>= Action.found (.item id)
    throw (.conflict (.itemSold id))

/-! ## Bids -/

/-- Stages the two writes of a settlement. -/
def settle (transaction : TransactionId) (bid : PlaceBid) (now : Instant) : Action Bid := do
  Action.store (.setItemStatusIn transaction bid.itemId .sold)
  Action.store (.insertBidIn transaction bid now)

/-- Places a bid. -/
def placeBid (bid : PlaceBid) (now : Instant) : Action Bid := do
  Action.ofExcept bid.validate
  let transaction ← Action.store .begin
  match ← Action.attempt (settle transaction bid now) with
  | .ok placed =>
    Action.store (.commit transaction)
    Action.forget (Cache.itemKey bid.itemId)
    return placed
  | .error failure =>
    let _ ← Action.attempt (Action.store (.rollback transaction))
    throw failure

end FishMarket.Command
