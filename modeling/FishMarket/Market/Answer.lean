import FishMarket.Market.Auctions
import FishMarket.Market.Items
import FishMarket.Market.Ledger
import FishMarket.Market.Venues

/-! # The market as a store

Each call is answered in one step from the state that it finds.
-/

namespace FishMarket.Market

/-- Answers a call and moves to the state after it. -/
def answer : (call : StoreCall) → Market → call.Answer × Market
  | .begin, market => (.ok market.begin.1, market.begin.2)
  | .commit transaction, market => market.commit transaction
  | .rollback transaction, market => (.ok (), market.close transaction)
  | .abandon transaction, market => (.ok (), market.close transaction)
  | .createVenue venue now, market =>
    (.ok (market.createVenue venue now).1, (market.createVenue venue now).2)
  | .findVenue id, market => (.ok (market.findVenue id), market)
  | .listVenues, market => (.ok market.listVenues, market)
  | .softDeleteVenue id now, market => market.softDeleteVenue id now
  | .createAuction auction now, market => market.createAuction auction now
  | .findAuction id, market => (.ok (market.auctions.find? id), market)
  | .listAuctions, market => (.ok market.listAuctions, market)
  | .listOpenAuctions, market => (.ok market.listOpenAuctions, market)
  | .updateAuctionStatus id status now, market =>
    (.ok (market.writeAuctionStatus id status now).1, (market.writeAuctionStatus id status now).2)
  | .completeAuction id now, market =>
    (.ok (market.completeAuction id now).1, (market.completeAuction id now).2)
  | .deleteAuction id, market => market.deleteAuction id
  | .createItem item now, market => market.createItem item now
  | .findItem id, market => (.ok (market.items.find? id), market)
  | .listItemListings auction, market => (.ok (market.listItemListings auction), market)
  | .updateItemStatus id status, market =>
    (.ok (market.updateItemStatus id status).1, (market.updateItemStatus id status).2)
  | .setItemStatusIn transaction id status, market =>
    market.setItemStatusIn transaction id status
  | .insertBidIn transaction bid now, market => market.insertBidIn transaction bid now
  | .listBidsForItem item, market => (.ok (market.listBidsForItem item), market)
  | .highestBid item, market => (.ok (market.highestBid item), market)
  | .buyerTotals, market => (market.buyerTotals, market)
  | .createBuyer name now, market =>
    (.ok (market.createBuyer name now).1, (market.createBuyer name now).2)
  | .findBuyer id, market => (.ok (market.buyers.find? id), market)
  | .createFisherman name now, market =>
    (.ok (market.createFisherman name now).1, (market.createFisherman name now).2)
  | .findFisherman id, market => (.ok (market.fishermen.find? id), market)

end FishMarket.Market
