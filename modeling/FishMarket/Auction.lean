import FishMarket.Calendar.BusinessTime
import FishMarket.Failure
import FishMarket.Record.Datum

/-! # Auctions

An auction is held at a venue on one business day, perhaps between two times of that day. It is
overdue once its day is over or its end has passed, and is then to be completed.
-/

namespace FishMarket

open Calendar

/-- An auction. -/
structure Auction where
  id : Int
  venueId : Int
  date : Date
  startTime? : Option TimeOfDay
  endTime? : Option TimeOfDay
  status : AuctionStatus
  createdAt : Instant
  updatedAt : Instant
deriving DecidableEq, Repr

instance : Recorded Auction where
  fields := [.required "id" .int64, .required "venue_id" .int64, .required "auction_date" .date,
    .optional "start_time" .time, .optional "end_time" .time, .required "status" .auctionStatus,
    .required "created_at" .instant, .required "updated_at" .instant]
  data auction := [.whole auction.id, .whole auction.venueId, .date auction.date,
    .ofOption .time auction.startTime?, .ofOption .time auction.endTime?,
    .auctionStatus auction.status, .instant auction.createdAt, .instant auction.updatedAt]
  ofData?
    | [.whole id, .whole venueId, .date date, startTime, endTime, .auctionStatus status,
        .instant createdAt, .instant updatedAt] => do
      let startTime? ← startTime.time?
      let endTime? ← endTime.time?
      return { id, venueId, date, startTime?, endTime?, status, createdAt, updatedAt }
    | _ => none

/-- An auction to be created. -/
structure NewAuction where
  venueId : Int
  date : Date
  startTime? : Option TimeOfDay
  endTime? : Option TimeOfDay
  status? : Option AuctionStatus
deriving DecidableEq, Repr

instance : Recorded NewAuction where
  fields := [.required "venue_id" .int64, .required "auction_date" .date,
    .optional "start_time" .time, .optional "end_time" .time, .optional "status" .auctionStatus]
  data auction := [.whole auction.venueId, .date auction.date,
    .ofOption .time auction.startTime?, .ofOption .time auction.endTime?,
    .ofOption .auctionStatus auction.status?]
  ofData?
    | [.whole venueId, .date date, startTime, endTime, status] => do
      let startTime? ← startTime.time?
      let endTime? ← endTime.time?
      let status? ← status.auctionStatus?
      return { venueId, date, startTime?, endTime?, status? }
    | _ => none

namespace Auction

/-- Whether an auction is to be completed: it has not ended, and either its day lies before the
business day or, on that day, its end has passed. -/
def isOverdue (auction : Auction) (now : Instant) : Bool :=
  !auction.status.isTerminal &&
    (auction.date < now.businessDay ||
      match auction.endTime? with
      | some endTime =>
        auction.date = now.businessDay && businessInstant auction.date endTime < now
      | none => false)

end Auction

/-- Refuses to change the status of an auction that has ended. -/
def AuctionStatus.checkTransition (current target : AuctionStatus) : Except Failure Unit :=
  if current.isTerminal then .error (.conflict (.transition current target)) else .ok ()

/-- The auction status with the given name. -/
def AuctionStatus.parse (text : String) : Except Failure AuctionStatus :=
  match AuctionStatus.ofName? text with
  | some status => .ok status
  | none => .error (.validation (.unknownAuctionStatus text))

end FishMarket
