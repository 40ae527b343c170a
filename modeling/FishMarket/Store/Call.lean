import FishMarket.Auction
import FishMarket.Bid
import FishMarket.Invoice
import FishMarket.Listing
import FishMarket.Party
import FishMarket.Venue

/-! # Calls to a store

Everything that a store of the market can be asked for. Each call is one atomic step of the store;
writes that belong together are staged under a transaction and become visible when it is committed.
-/

namespace FishMarket

open Calendar

/-- The handle of an open transaction. -/
abbrev TransactionId : Type := Int

/-- A call to a store. -/
inductive StoreCall where
  | begin
  /-- Applies all staged writes, or none; the transaction is over in either case. -/
  | commit (transaction : TransactionId)
  /-- Forgets the staged writes. -/
  | rollback (transaction : TransactionId)
  /-- Gives up a transaction without asking whether that succeeds. -/
  | abandon (transaction : TransactionId)
  | createVenue (venue : NewVenue) (now : Instant)
  | findVenue (id : Int)
  | listVenues
  | softDeleteVenue (id : Int) (now : Instant)
  | createAuction (auction : NewAuction) (now : Instant)
  | findAuction (id : Int)
  | listAuctions
  | listOpenAuctions
  /-- Changes the status of an auction that has not ended. -/
  | updateAuctionStatus (id : Int) (status : AuctionStatus) (now : Instant)
  /-- Completes an auction that has not ended; one that has is returned as it is. -/
  | completeAuction (id : Int) (now : Instant)
  | deleteAuction (id : Int)
  | createItem (item : NewItem) (now : Instant)
  | findItem (id : Int)
  | listItemListings (auction : Int)
  /-- Changes the status of an item, except from sold to anything else. -/
  | updateItemStatus (id : Int) (status : ItemStatus)
  | setItemStatusIn (transaction : TransactionId) (id : Int) (status : ItemStatus)
  | insertBidIn (transaction : TransactionId) (bid : PlaceBid) (now : Instant)
  | listBidsForItem (item : Int)
  | highestBid (item : Int)
  | buyerTotals
  | createBuyer (name : String) (now : Instant)
  | findBuyer (id : Int)
  | createFisherman (name : String) (now : Instant)
  | findFisherman (id : Int)
deriving DecidableEq, Repr

namespace StoreCall

/-- What a call yields when it succeeds. -/
abbrev Yield : StoreCall → Type
  | begin => TransactionId
  | commit _ => Unit
  | rollback _ => Unit
  | abandon _ => Unit
  | createVenue _ _ => Venue
  | findVenue _ => Option Venue
  | listVenues => List Venue
  | softDeleteVenue _ _ => Unit
  | createAuction _ _ => Auction
  | findAuction _ => Option Auction
  | listAuctions => List Auction
  | listOpenAuctions => List Auction
  | updateAuctionStatus _ _ _ => Option Auction
  | completeAuction _ _ => Option Auction
  | deleteAuction _ => Unit
  | createItem _ _ => Item
  | findItem _ => Option Item
  | listItemListings _ => List Listing
  | updateItemStatus _ _ => Option Item
  | setItemStatusIn _ _ _ => Unit
  | insertBidIn _ _ _ => Bid
  | listBidsForItem _ => List Bid
  | highestBid _ => Option HighestBid
  | buyerTotals => List BuyerTotal
  | createBuyer _ _ => Buyer
  | findBuyer _ => Option Buyer
  | createFisherman _ _ => Fisherman
  | findFisherman _ => Option Fisherman

/-- The answer to a call. -/
abbrev Answer (call : StoreCall) : Type :=
  Except Failure call.Yield

/-- The name of the operation that a call asks for. -/
def operation : StoreCall → String
  | begin => "begin"
  | commit _ => "commit"
  | rollback _ => "rollback"
  | abandon _ => "abandon"
  | createVenue _ _ => "create_venue"
  | findVenue _ => "find_venue"
  | listVenues => "list_venues"
  | softDeleteVenue _ _ => "soft_delete_venue"
  | createAuction _ _ => "create_auction"
  | findAuction _ => "find_auction"
  | listAuctions => "list_auctions"
  | listOpenAuctions => "list_open_auctions"
  | updateAuctionStatus _ _ _ => "update_auction_status"
  | completeAuction _ _ => "complete_auction"
  | deleteAuction _ => "delete_auction"
  | createItem _ _ => "create_item"
  | findItem _ => "find_item"
  | listItemListings _ => "list_item_listings"
  | updateItemStatus _ _ => "update_item_status"
  | setItemStatusIn _ _ _ => "set_item_status_in"
  | insertBidIn _ _ _ => "insert_bid_in"
  | listBidsForItem _ => "list_bids_for_item"
  | highestBid _ => "highest_bid"
  | buyerTotals => "buyer_totals"
  | createBuyer _ _ => "create_buyer"
  | findBuyer _ => "find_buyer"
  | createFisherman _ _ => "create_fisherman"
  | findFisherman _ => "find_fisherman"

end StoreCall

end FishMarket
