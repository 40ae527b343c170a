import FishMarket.Market.Table
import FishMarket.Store.Call

/-! # The market in memory

The store that keeps everything itself. Ids of all kinds come from one counter. Bids stand in the
ledger in the order in which they were committed. What a transaction writes is staged with its
handle, out of sight of everybody, until it is committed.
-/

namespace FishMarket

open Calendar

/-- A write that waits for its transaction to be committed. -/
inductive StagedWrite where
  | itemStatus (item : Int) (status : ItemStatus)
  | bid (staged : Bid)
deriving DecidableEq, Repr

/-- The item that a staged write is about. -/
def StagedWrite.item : StagedWrite → Int
  | .itemStatus item _ => item
  | .bid staged => staged.itemId

/-- Everything that the market has on record. -/
structure Market where
  venues : Table Venue
  auctions : Table Auction
  items : Table Item
  /-- The bids in the order in which they were committed. -/
  ledger : List Bid
  buyers : Table Buyer
  fishermen : Table Fisherman
  /-- The id that was given out last. -/
  lastId : Int
  /-- Whether the next bid is to be refused, for trying out what happens then. -/
  refuseNextBid : Bool
  /-- The staged writes of each open transaction. -/
  staged : Table (List StagedWrite)
  /-- The handle that was given out last. -/
  lastTransaction : TransactionId

namespace Market

/-- The market before anything has happened. -/
def initial : Market where
  venues := .empty
  auctions := .empty
  items := .empty
  ledger := []
  buyers := .empty
  fishermen := .empty
  lastId := 0
  refuseNextBid := false
  staged := .empty
  lastTransaction := 0

instance : Inhabited Market := ⟨initial⟩

/-- The id that is given out next. -/
def nextId (market : Market) : Int :=
  market.lastId + 1

/-- The market after an id was given out. -/
def takeId (market : Market) : Market :=
  { market with lastId := market.nextId }

/-- The bids on an item, in the order of the ledger. -/
def bidsOn (market : Market) (item : Int) : List Bid :=
  market.ledger.filter fun bid => bid.itemId = item

/-- Whether a bid is on an item of the given auction. -/
def isOnAuction (market : Market) (auction : Int) (bid : Bid) : Bool :=
  match market.items.find? bid.itemId with
  | some item => item.auctionId = auction
  | none => false

/-- Whether there are bids on items of an auction. -/
def auctionHasBids (market : Market) (auction : Int) : Bool :=
  market.ledger.any (market.isOnAuction auction)

/-- Whether there are bids on items of any auction of a venue. -/
def venueHasBids (market : Market) (venue : Int) : Bool :=
  (market.auctions.values.filter fun auction => auction.venueId = venue).any fun auction =>
    market.auctionHasBids auction.id

end Market

end FishMarket
