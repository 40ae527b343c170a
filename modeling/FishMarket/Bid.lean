import FishMarket.Failure
import FishMarket.Record.Datum

/-! # Bids

A bid is recorded once and never changed. The highest bid on an item is the one with the highest
price, and of several at that price the one with the smallest id.
-/

namespace FishMarket

open Calendar

/-- A bid. -/
structure Bid where
  id : Int
  itemId : Int
  buyerId : Int
  price : Int
  createdAt : Instant
deriving DecidableEq, Repr, Inhabited

instance : Recorded Bid where
  fields := [.required "id" .int64, .required "item_id" .int64, .required "buyer_id" .int64,
    .required "price" .int64, .required "created_at" .instant]
  data bid := [.whole bid.id, .whole bid.itemId, .whole bid.buyerId, .whole bid.price,
    .instant bid.createdAt]
  ofData?
    | [.whole id, .whole itemId, .whole buyerId, .whole price, .instant createdAt] =>
      some { id, itemId, buyerId, price, createdAt }
    | _ => none

/-- A bid to be placed. -/
structure PlaceBid where
  itemId : Int
  buyerId : Int
  price : Int
deriving DecidableEq, Repr, Inhabited

instance : Recorded PlaceBid where
  fields := [.required "item_id" .int64, .required "buyer_id" .int64, .required "price" .int64]
  data bid := [.whole bid.itemId, .whole bid.buyerId, .whole bid.price]
  ofData?
    | [.whole itemId, .whole buyerId, .whole price] => some { itemId, buyerId, price }
    | _ => none

/-- Refuses a bid with an id or a price that is not positive. -/
def PlaceBid.validate (bid : PlaceBid) : Except Failure Unit :=
  if bid.itemId ≤ 0 then .error (.validation .itemIdNotPositive)
  else if bid.buyerId ≤ 0 then .error (.validation .buyerIdNotPositive)
  else if bid.price ≤ 0 then .error (.validation .priceNotPositive)
  else .ok ()

/-! ## The highest bid -/

/-- The price and the buyer of the highest bid on an item. -/
structure HighestBid where
  price : Int
  buyerId : Int
deriving DecidableEq, Repr, Inhabited

instance : Recorded HighestBid where
  fields := [.required "price" .int64, .required "buyer_id" .int64]
  data bid := [.whole bid.price, .whole bid.buyerId]
  ofData?
    | [.whole price, .whole buyerId] => some { price, buyerId }
    | _ => none

namespace Bid

/-- Whether a bid wins over another: by its price, and at the same price by a smaller id. -/
def Beats (a b : Bid) : Prop :=
  b.price < a.price ∨ a.price = b.price ∧ a.id < b.id

instance (a b : Bid) : Decidable (Beats a b) :=
  inferInstanceAs (Decidable (_ ∨ _))

/-- The bid that no other beats; of equals the one that comes first. -/
def best? : List Bid → Option Bid
  | [] => none
  | bid :: bids => some (bids.foldl (fun best next => if next.Beats best then next else best) bid)

/-- The price and buyer of a bid. -/
def toHighest (bid : Bid) : HighestBid :=
  ⟨bid.price, bid.buyerId⟩

/-- The highest of some bids. -/
def pickHighest (bids : List Bid) : Option HighestBid :=
  (best? bids).map toHighest

end Bid

end FishMarket
