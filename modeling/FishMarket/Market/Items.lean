import FishMarket.Market.Basic

/-! # Items in memory -/

namespace FishMarket.Market

open Calendar

/-- Adds an item to an auction. The id is used up in any case. -/
def createItem (market : Market) (new : NewItem) (now : Instant) :
    Except Failure Item × Market :=
  let item : Item := {
    id := market.nextId
    auctionId := new.auctionId
    fishermanId := new.fishermanId
    fishType := new.fishType
    quantity := new.quantity
    unit := new.unit
    status := new.status?.getD .pending
    sortOrder := new.sortOrder
    createdAt := now }
  if market.auctions.contains new.auctionId && market.fishermen.contains new.fishermanId then
    (.ok item, { market.takeId with items := market.items.insert item.id item })
  else (.error (.conflict .auctionOrFishermanMissing), market.takeId)

/-- Whether an item comes before another in the catalogue of an auction. -/
def itemPrecedes (a b : Item) : Bool :=
  a.sortOrder < b.sortOrder || (a.sortOrder = b.sortOrder && a.id ≤ b.id)

/-- The items of an auction in the order of its catalogue. -/
def itemsOf (market : Market) (auction : Int) : List Item :=
  (market.items.values.filter fun item => item.auctionId = auction).mergeSort itemPrecedes

/-- The listings of an auction. -/
def listItemListings (market : Market) (auction : Int) : List Listing :=
  (market.itemsOf auction).map fun item =>
    Listing.ofItem item (Bid.pickHighest (market.bidsOn item.id))

/-- Writes the status of an item, unless that would take back a sale, and returns the row as it
then is. -/
def updateItemStatus (market : Market) (id : Int) (status : ItemStatus) :
    Option Item × Market :=
  match market.items.find? id with
  | none => (none, market)
  | some item =>
    if item.status.allows status then
      let changed := { item with status := status }
      (some changed, { market with items := market.items.modify id fun _ => changed })
    else (none, market)

end FishMarket.Market
