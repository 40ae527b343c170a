import FishMarket.Bid
import FishMarket.Item
import FishMarket.Record.Flattened

/-! # Listings

The rows of an auction's catalogue: each item together with the highest bid on it, if there is one.
-/

namespace FishMarket

/-- An item together with the highest bid on it. -/
structure Listing where
  item : Item
  highestBid? : Option Int
  highestBidderId? : Option Int
deriving DecidableEq, Repr

namespace Listing

/-- The fields that a listing adds to those of its item. -/
def ownFields : List Field :=
  [.optional "highest_bid" .int64, .optional "highest_bidder_id" .int64]

/-- The number of fields of an item. -/
def itemWidth : Nat :=
  (Recorded.fields Item).length

instance : Recorded Listing where
  fields := Recorded.fields Item ++ ownFields
  data listing := Recorded.data listing.item ++
    [.ofOption .whole listing.highestBid?, .ofOption .whole listing.highestBidderId?]
  ofData? data := do
    let item ← Recorded.ofData? (data.take itemWidth)
    match data.drop itemWidth with
    | [price, bidder] =>
      let highestBid? ← price.whole?
      let highestBidderId? ← bidder.whole?
      return { item, highestBid?, highestBidderId? }
    | _ => none

/-- The listing of an item with the given highest bid. -/
def ofItem (item : Item) (highest? : Option HighestBid) : Listing where
  item := item
  highestBid? := highest?.map (·.price)
  highestBidderId? := highest?.map (·.buyerId)

/-- Reads a listing that makes up the whole text. -/
def readWhole (text : List Char) : Except Json.Fault Listing := do
  let (data, rest) ←
    Record.readFlattened (Recorded.fields Item) ownFields (Json.Token.list text)
  if rest.isEmpty then Record.ofData data else .error .malformed

end Listing

end FishMarket
