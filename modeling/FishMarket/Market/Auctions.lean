import FishMarket.Market.Basic

/-! # Auctions in memory -/

namespace FishMarket.Market

open Calendar

/-- Adds an auction at a venue that is on record. The id is used up in any case. -/
def createAuction (market : Market) (new : NewAuction) (now : Instant) :
    Except Failure Auction × Market :=
  let auction : Auction := {
    id := market.nextId
    venueId := new.venueId
    date := new.date
    startTime? := new.startTime?
    endTime? := new.endTime?
    status := new.status?.getD .scheduled
    createdAt := now
    updatedAt := now }
  if market.venues.contains new.venueId then
    (.ok auction, { market.takeId with auctions := market.auctions.insert auction.id auction })
  else (.error (.conflict (.venueMissing new.venueId)), market.takeId)

/-- Whether an auction comes before another in a list of all: the later date first, and of one
date the greater id. -/
def auctionPrecedes (a b : Auction) : Bool :=
  b.date < a.date || (a.date = b.date && b.id ≤ a.id)

/-- All auctions, the latest first. -/
def listAuctions (market : Market) : List Auction :=
  market.auctions.values.mergeSort auctionPrecedes

/-- The auctions that have not ended, in the order of their ids. -/
def listOpenAuctions (market : Market) : List Auction :=
  market.auctions.values.filter fun auction => !auction.status.isTerminal

/-- Writes the status of an auction, if it has not ended, and returns the row as it then is. -/
def writeAuctionStatus (market : Market) (id : Int) (status : AuctionStatus) (now : Instant) :
    Option Auction × Market :=
  match market.auctions.find? id with
  | none => (none, market)
  | some auction =>
    if auction.status.isTerminal then (none, market)
    else
      let changed := { auction with status := status, updatedAt := now }
      (some changed, { market with auctions := market.auctions.modify id fun _ => changed })

/-- Completes an auction if it has not ended, and returns the row as it then is. -/
def completeAuction (market : Market) (id : Int) (now : Instant) : Option Auction × Market :=
  match market.auctions.find? id with
  | none => (none, market)
  | some auction =>
    if auction.status.isTerminal then (some auction, market)
    else market.writeAuctionStatus id .completed now

/-- Deletes an auction and its items, unless there are bids on them. -/
def deleteAuction (market : Market) (id : Int) : Except Failure Unit × Market :=
  if !market.auctions.contains id then (.error (.notFound (.auction id)), market)
  else if market.auctionHasBids id then (.error (.conflict (.auctionHasBids id)), market)
  else
    (.ok (), { market with
      auctions := market.auctions.erase id
      items := market.items.filter fun item => item.auctionId ≠ id })

end FishMarket.Market
