import FishMarket.Failure
import FishMarket.Record.Datum

/-! # Items

What a fisherman brings to an auction: an amount of one kind of fish.
-/

namespace FishMarket

open Calendar

/-- An item of an auction. -/
structure Item where
  id : Int
  auctionId : Int
  fishermanId : Int
  fishType : String
  quantity : Int
  unit : String
  status : ItemStatus
  sortOrder : Int
  createdAt : Instant
deriving DecidableEq, Repr

instance : Recorded Item where
  fields := [.required "id" .int64, .required "auction_id" .int64,
    .required "fisherman_id" .int64, .required "fish_type" .text, .required "quantity" .int32,
    .required "unit" .text, .required "status" .itemStatus, .required "sort_order" .int32,
    .required "created_at" .instant]
  data item := [.whole item.id, .whole item.auctionId, .whole item.fishermanId,
    .text item.fishType, .whole item.quantity, .text item.unit, .itemStatus item.status,
    .whole item.sortOrder, .instant item.createdAt]
  ofData?
    | [.whole id, .whole auctionId, .whole fishermanId, .text fishType, .whole quantity,
        .text unit, .itemStatus status, .whole sortOrder, .instant createdAt] =>
      some { id, auctionId, fishermanId, fishType, quantity, unit, status, sortOrder, createdAt }
    | _ => none

/-- An item to be created. -/
structure NewItem where
  auctionId : Int
  fishermanId : Int
  fishType : String
  quantity : Int
  unit : String
  status? : Option ItemStatus
  sortOrder : Int
deriving DecidableEq, Repr

instance : Recorded NewItem where
  fields := [.required "auction_id" .int64, .required "fisherman_id" .int64,
    .required "fish_type" .text, .required "quantity" .int32, .required "unit" .text,
    .optional "status" .itemStatus, .defaulted "sort_order" .int32 (.whole 0)]
  data item := [.whole item.auctionId, .whole item.fishermanId, .text item.fishType,
    .whole item.quantity, .text item.unit, .ofOption .itemStatus item.status?,
    .whole item.sortOrder]
  ofData?
    | [.whole auctionId, .whole fishermanId, .text fishType, .whole quantity, .text unit,
        status, .whole sortOrder] =>
      status.itemStatus?.map fun status? =>
        { auctionId, fishermanId, fishType, quantity, unit, status?, sortOrder }
    | _ => none

/-- The item status with the given name. -/
def ItemStatus.parse (text : String) : Except Failure ItemStatus :=
  match ItemStatus.ofName? text with
  | some status => .ok status
  | none => .error (.validation (.unknownItemStatus text))

end FishMarket
