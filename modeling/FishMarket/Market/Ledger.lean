import FishMarket.Market.Basic

/-! # Transactions and bids in memory

A commit first looks whether the items of all staged writes are still there. Only then are the
writes applied, in the order in which they were staged.
-/

namespace FishMarket.Market

open Calendar

/-! ## Transactions -/

/-- Opens a transaction. -/
def begin (market : Market) : TransactionId × Market :=
  let transaction := market.lastTransaction + 1
  (transaction, { market with
    staged := market.staged.insert transaction []
    lastTransaction := transaction })

/-- The staged writes of a transaction. -/
def writesOf (market : Market) (transaction : TransactionId) : List StagedWrite :=
  (market.staged.find? transaction).getD []

/-- Ends a transaction without applying what it has staged. -/
def close (market : Market) (transaction : TransactionId) : Market :=
  { market with staged := market.staged.erase transaction }

/-- Stages a write. -/
def stage (market : Market) (transaction : TransactionId) (write : StagedWrite) : Market :=
  { market with staged := market.staged.modify transaction fun writes => writes ++ [write] }

/-- Applies one write. -/
def apply (market : Market) : StagedWrite → Market
  | .itemStatus id status =>
    { market with items := market.items.modify id fun item => { item with status := status } }
  | .bid staged => { market with ledger := market.ledger ++ [staged] }

/-- Applies writes in order. -/
def applyAll (market : Market) (writes : List StagedWrite) : Market :=
  writes.foldl apply market

/-- The first write whose item is not there. -/
def orphan? (market : Market) (writes : List StagedWrite) : Option StagedWrite :=
  writes.find? fun write => !market.items.contains write.item

/-- Commits a transaction: all of its writes are applied, or none. -/
def commit (market : Market) (transaction : TransactionId) : Except Failure Unit × Market :=
  let writes := market.writesOf transaction
  match market.orphan? writes with
  | some write => (.error (.conflict (.itemDeleted write.item)), market.close transaction)
  | none => (.ok (), (market.applyAll writes).close transaction)

/-- Stages a status for an item that is there. -/
def setItemStatusIn (market : Market) (transaction : TransactionId) (id : Int)
    (status : ItemStatus) : Except Failure Unit × Market :=
  if market.items.contains id then (.ok (), market.stage transaction (.itemStatus id status))
  else (.error (.notFound (.item id)), market)

/-- Stages a bid of a buyer on an item, both of which are there. -/
def insertBidIn (market : Market) (transaction : TransactionId) (place : PlaceBid)
    (now : Instant) : Except Failure Bid × Market :=
  if market.refuseNextBid then
    (.error (.internal .bidRefused), { market with refuseNextBid := false })
  else if market.items.contains place.itemId && market.buyers.contains place.buyerId then
    let bid : Bid := {
      id := market.nextId
      itemId := place.itemId
      buyerId := place.buyerId
      price := place.price
      createdAt := now }
    (.ok bid, market.takeId.stage transaction (.bid bid))
  else (.error (.conflict .itemOrBuyerMissing), market)

/-- Lets the next bid be refused. -/
def refuseBid (market : Market) : Market :=
  { market with refuseNextBid := true }

/-! ## Reading the ledger -/

/-- Whether a bid comes before another in a list: the later one first, and of bids of the same
instant the one with the greater id. -/
def bidPrecedes (a b : Bid) : Bool :=
  b.createdAt < a.createdAt || (a.createdAt = b.createdAt && b.id ≤ a.id)

/-- The bids on an item, the latest first. -/
def listBidsForItem (market : Market) (item : Int) : List Bid :=
  (market.bidsOn item).mergeSort bidPrecedes

/-- The highest bid on an item. -/
def highestBid (market : Market) (item : Int) : Option HighestBid :=
  Bid.pickHighest (market.bidsOn item)

/-- Adds a bid to the sum of its buyer, if the sum stays within 64 bits. -/
def addToSum (sums : Table Int) (bid : Bid) : Except Failure (Table Int) :=
  let sum := (sums.find? bid.buyerId).getD 0 + bid.price
  if Text.minInt64 ≤ sum ∧ sum ≤ Text.maxInt64 then .ok (sums.insert bid.buyerId sum)
  else .error (.internal (.totalTooLarge bid.buyerId))

/-- The sum of the bids of each buyer with a bid, in the order of the buyers' ids. -/
def buyerTotals (market : Market) : Except Failure (List BuyerTotal) := do
  let sums ← market.ledger.foldlM addToSum Table.empty
  return sums.entries.filterMap fun (id, sum) =>
    (market.buyers.find? id).map fun buyer =>
      { buyerId := id, buyerName := buyer.name, totalPrice := sum }

end FishMarket.Market
