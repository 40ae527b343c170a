import FishMarket.Database.Call
import FishMarket.Routine
import FishMarket.Store.Call

/-! # A database as a store

Each call to the store becomes one or a few statements. A write that depends on more than one
statement is made in a transaction. Where a transaction does not end as it was asked to, it is
abandoned, and the server rolls it back.
-/

namespace FishMarket.Database

open Calendar

/-- A routine of statements that may fail. -/
abbrev Exchange (α : Type) : Type :=
  ExceptT Failure (Routine DatabaseCall DatabaseCall.Answer) α

namespace Exchange

/-- Sends a call; an error of the server is the failure of the exchange. -/
def send (call : DatabaseCall) : Exchange call.Yield :=
  ExceptT.mk (.ask call fun answer => .done (answer.mapError Failure.ofServerError))

/-- Sends a call and goes on whatever the answer is. -/
def sendAnyway (call : DatabaseCall) : Exchange Unit :=
  ExceptT.mk (.ask call fun _ => .done (.ok ()))

/-- Runs a statement and reports how many rows it has changed. -/
def execute (transaction? : Option TransactionId) (statement : Statement)
    (parameters : List Datum) : Exchange Nat := do
  let result ← send (.run transaction? statement (parameters.map Datum.stored))
  return result.affected

/-- What has been read from the rows, or the failure of a row that does not fit. -/
def readable {α : Type} : Option α → Exchange α
  | some value => return value
  | none => throw (.internal .database)

/-- The records of all rows. -/
def fetchAll (α : Type) [Recorded α] (statement : Statement) (parameters : List Datum) :
    Exchange (List α) := do
  let result ← send (.run none statement (parameters.map Datum.stored))
  readable (result.rows.mapM fun row => row.record? α)

/-- The record of the first row, if there is a row. -/
def fetchFirst (α : Type) [Recorded α] (transaction? : Option TransactionId)
    (statement : Statement) (parameters : List Datum) : Exchange (Option α) := do
  let result ← send (.run transaction? statement (parameters.map Datum.stored))
  match result.rows with
  | [] => return none
  | row :: _ => return some (← readable (row.record? α))

/-- The record of the first row, which has to be there. -/
def fetchOne (α : Type) [Recorded α] (transaction? : Option TransactionId)
    (statement : Statement) (parameters : List Datum) : Exchange α := do
  match ← fetchFirst α transaction? statement parameters with
  | some record => return record
  | none => throw (.notFound .requested)

/-- Commits or rolls back a transaction. If that fails the transaction is abandoned. -/
def finish (call : DatabaseCall) (transaction : TransactionId) : Exchange call.Yield :=
  ExceptT.mk (.ask call fun answer =>
    match answer with
    | .ok value => .done (.ok value)
    | .error error =>
      .ask (.abandon transaction) fun _ => .done (.error (Failure.ofServerError error)))

/-- Carries out an exchange in a transaction, which is committed if it succeeds and rolled back if
it fails. A rollback that fails takes the place of the failure before it. -/
def inTransaction (exchange : TransactionId → Exchange Unit) : Exchange Unit := do
  let transaction ← send .begin
  match ← ExceptT.lift (exchange transaction).run with
  | .ok () => finish (.commit transaction) transaction
  | .error failure =>
    finish (.rollback transaction) transaction
    throw failure

end Exchange

open Exchange

/-- The number under which a venue is found. -/
structure VenueId where
  id : Int

instance : Recorded VenueId where
  fields := [.required "id" .int64]
  data venue := [.whole venue.id]
  ofData?
    | [.whole id] => some { id }
    | _ => none

/-- Gives up a venue, while nobody else can change it. -/
def softDeleteVenue (id : Int) (now : Instant) (transaction : TransactionId) : Exchange Unit := do
  match ← fetchFirst VenueId (some transaction) .lockVenue [.whole id] with
  | none => throw (.notFound (.venue id))
  | some _ => pure ()
  let result ← send (.run (some transaction) .venueHasBids [.whole id])
  match result.rows with
  | [] => throw (.notFound .requested)
  | row :: _ =>
    let hasBids ← readable (row.flag? "exists")
    if hasBids then throw (.conflict (.venueHasBids id))
  let _ ← execute (some transaction) .softDeleteVenue [.whole id, .instant now]

/-- Fails if no row was changed. -/
def changed (subject : Subject) (affected : Nat) : Exchange Unit :=
  if affected = 0 then throw (.notFound subject) else return ()

/-- The statements that a call to the store becomes. -/
def exchange : (call : StoreCall) → Exchange call.Yield
  | .begin => send .begin
  | .commit transaction => finish (.commit transaction) transaction
  | .rollback transaction => finish (.rollback transaction) transaction
  | .abandon transaction => sendAnyway (.abandon transaction)
  | .createVenue venue now =>
    fetchOne Venue none .insertVenue
      [.text venue.name, .text venue.location, .text venue.description, .instant now]
  | .findVenue id => fetchFirst Venue none .getVenue [.whole id]
  | .listVenues => fetchAll Venue .listVenues []
  | .softDeleteVenue id now => inTransaction (softDeleteVenue id now)
  | .createAuction auction now =>
    fetchOne Auction none .insertAuction
      [.whole auction.venueId, .date auction.date, .ofOption .time auction.startTime?,
        .ofOption .time auction.endTime?, .auctionStatus (auction.status?.getD .scheduled),
        .instant now]
  | .findAuction id => fetchFirst Auction none .getAuction [.whole id]
  | .listAuctions => fetchAll Auction .listAuctions []
  | .listOpenAuctions => fetchAll Auction .listOpenAuctions []
  | .updateAuctionStatus id status now =>
    fetchFirst Auction none .updateAuctionStatus [.whole id, .auctionStatus status, .instant now]
  | .completeAuction id now => do
    let _ ← execute none .completeAuction [.whole id, .instant now]
    fetchFirst Auction none .getAuction [.whole id]
  | .deleteAuction id => do
    let affected ← execute none .deleteAuction [.whole id]
    changed (.auction id) affected
  | .createItem item now =>
    fetchOne Item none .insertItem
      [.whole item.auctionId, .whole item.fishermanId, .text item.fishType, .whole item.quantity,
        .text item.unit, .itemStatus (item.status?.getD .pending), .whole item.sortOrder,
        .instant now]
  | .findItem id => fetchFirst Item none .getItem [.whole id]
  | .listItemListings auction => fetchAll Listing .listItemListings [.whole auction]
  | .updateItemStatus id status =>
    fetchFirst Item none .updateItemStatus [.whole id, .itemStatus status]
  | .setItemStatusIn transaction id status => do
    let affected ← execute (some transaction) .setItemStatus [.whole id, .itemStatus status]
    changed (.item id) affected
  | .insertBidIn transaction bid now =>
    fetchOne Bid (some transaction) .insertBid
      [.whole bid.itemId, .whole bid.buyerId, .whole bid.price, .instant now]
  | .listBidsForItem item => fetchAll Bid .listBidsForItem [.whole item]
  | .highestBid item => fetchFirst HighestBid none .highestBid [.whole item]
  | .buyerTotals => fetchAll BuyerTotal .buyerTotals []
  | .createBuyer name now => fetchOne Buyer none .insertBuyer [.text name, .instant now]
  | .findBuyer id => fetchFirst Buyer none .getBuyer [.whole id]
  | .createFisherman name now =>
    fetchOne Fisherman none .insertFisherman [.text name, .instant now]
  | .findFisherman id => fetchFirst Fisherman none .getFisherman [.whole id]

/-- Answers a call to the store by way of the database. -/
def answer (call : StoreCall) : Routine DatabaseCall DatabaseCall.Answer call.Answer :=
  (exchange call).run

/-! ## Creating the tables -/

/-- Sends a call and looks at the answer. -/
def ask (call : DatabaseCall) : Routine DatabaseCall DatabaseCall.Answer call.Answer :=
  .ask call .done

/-- Creates the tables unless they are there, all of them or none. Whether that has succeeded is the
result. -/
def migrate : Routine DatabaseCall DatabaseCall.Answer Bool := do
  match ← ask .hasSchema with
  | .error _ => return false
  | .ok true => return true
  | .ok false =>
    match ← ask .begin with
    | .error _ => return false
    | .ok transaction =>
      match ← ask (.run (some transaction) .createSchema []) with
      | .error _ =>
        let _ ← ask (.abandon transaction)
        return false
      | .ok _ =>
        match ← ask (.commit transaction) with
        | .ok () => return true
        | .error _ =>
          let _ ← ask (.abandon transaction)
          return false

end FishMarket.Database
