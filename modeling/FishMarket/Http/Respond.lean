import FishMarket.Command
import FishMarket.Http.Extract
import FishMarket.Http.Resource
import FishMarket.Query

/-! # Responses

Each resource has a handler. It looks at the sender, then at the id in the path, then at the body,
and the first thing that is wrong decides the response. Whatever goes wrong inside the service is
answered with one and the same text.
-/

namespace FishMarket.Http

open Calendar

/-- What a response says. -/
inductive Content where
  | none
  | text (plain : String)
  | json (written : List Char)
deriving DecidableEq, Repr

/-- A status and what is said with it. -/
structure Reply where
  status : Nat
  content : Content
deriving DecidableEq, Repr

/-- A routine of the service that ends with a refusal or a value. -/
abbrev Handler (α : Type) : Type :=
  ExceptT Refusal (Routine ServiceCall ServiceCall.Answer) α

namespace Handler

variable {α : Type}

/-- Takes something from the request, or refuses it. -/
def extract (extracted : Except Refusal α) : Handler α :=
  ExceptT.mk (.done extracted)

/-- Carries out an action; what it fails with is changed first. -/
def performOr (change : Failure → Failure) (action : Action α) : Handler α :=
  ExceptT.mk (action.run.bind fun outcome =>
    .done (outcome.mapError fun failure => .failure (change failure)))

/-- Carries out an action. -/
def perform (action : Action α) : Handler α :=
  performOr id action

end Handler

open Handler

/-- A record with status 200. -/
def okRecord {α : Type} [Recorded α] (record : α) : Reply :=
  ⟨200, .json (Recorded.json record)⟩

/-- Records with status 200. -/
def okRecords {α : Type} [Recorded α] (records : List α) : Reply :=
  ⟨200, .json (Recorded.jsonList records)⟩

/-- A new record with status 201. -/
def created {α : Type} [Recorded α] (record : α) : Reply :=
  ⟨201, .json (Recorded.json record)⟩

/-- The reply to a deletion. -/
def deleted : Reply :=
  ⟨204, .none⟩

/-- The highest bid on an item, or nothing in its place. -/
def highestBidReply (item : Int) (highest? : Option HighestBid) : Reply :=
  ⟨200, .json (Record.object [
    ("highest_bid", (Datum.ofOption .whole (highest?.map (·.price))).json),
    ("highest_bidder_id", (Datum.ofOption .whole (highest?.map (·.buyerId))).json),
    ("item_id", Text.ofInt item)])⟩

/-- A buyer who does not exist has no session. -/
def unknownBuyer : Failure → Failure
  | .notFound _ => .unauthorized .buyerUnknown
  | failure => failure

/-- Handles a request to a resource, with the time in milliseconds for which values are cached. -/
def handle (ttl : Nat) (now : Instant) (request : Request) : Resource → Handler Reply
  | .health => return ⟨200, .text "ok"⟩
  | .buyerBids => do
    let buyer ← extract (request.sender .buyer)
    let body ← extract (request.record BidRequest)
    let _ ← performOr unknownBuyer (Query.getBuyer ttl buyer)
    let bid : PlaceBid := { itemId := body.itemId, buyerId := buyer, price := body.price }
    return created (← perform (Command.placeBid bid now))
  | .venues => return okRecords (← perform Query.getAllVenues)
  | .venue id => do
    let id ← extract (pathId id)
    return okRecord (← perform (Query.getVenue id))
  | .auctions => return okRecords (← perform (Query.getAllAuctions now))
  | .auction id => do
    let id ← extract (pathId id)
    return okRecord (← perform (Query.getAuction id now))
  | .auctionItems id => do
    let id ← extract (pathId id)
    return okRecords (← perform (Query.getAuctionItems id))
  | .auctionStatus id => do
    let _ ← extract (request.sender .admin)
    let id ← extract (pathId id)
    let body ← extract (request.record StatusRequest)
    return okRecord (← perform (Command.updateAuctionStatus id body.status now))
  | .item id => do
    let id ← extract (pathId id)
    return okRecord (← perform (Query.getItem ttl id))
  | .itemBids id => do
    let id ← extract (pathId id)
    return okRecords (← perform (Query.getItemBids id))
  | .itemHighestBid id => do
    let id ← extract (pathId id)
    return highestBidReply id (← perform (Query.getHighestBid id))
  | .invoices => return okRecords (← perform Query.listInvoices)
  | .buyer id => do
    let id ← extract (pathId id)
    return okRecord (← perform (Query.getBuyer ttl id))
  | .fisherman id => do
    let id ← extract (pathId id)
    return okRecord (← perform (Query.getFisherman ttl id))
  | .adminVenues => do
    let _ ← extract (request.sender .admin)
    let venue ← extract (request.record NewVenue)
    return created (← perform (Command.createVenue venue now))
  | .adminVenue id => do
    let _ ← extract (request.sender .admin)
    let id ← extract (pathId id)
    perform (Command.deleteVenue id now)
    return deleted
  | .adminAuctions => do
    let _ ← extract (request.sender .admin)
    let auction ← extract (request.record NewAuction)
    return created (← perform (Command.createAuction auction now))
  | .adminAuction id => do
    let _ ← extract (request.sender .admin)
    let id ← extract (pathId id)
    perform (Command.deleteAuction id)
    return deleted
  | .adminItems => do
    let _ ← extract (request.sender .admin)
    let item ← extract (request.record NewItem)
    return created (← perform (Command.createItem item now))
  | .adminItemStatus id => do
    let _ ← extract (request.sender .admin)
    let id ← extract (pathId id)
    let body ← extract (request.record StatusRequest)
    return okRecord (← perform (Command.updateItemStatus id body.status))

/-- What is said about a failure. -/
def failureContent (cause : Failure) : Content :=
  .json (Record.object [
    ("code", Json.Quoted.encode cause.kind.code.toList),
    ("error", Json.Quoted.encode cause.publicMessage.toList)])

/-- The reply to a request that is not carried out. -/
def Refusal.reply : Refusal → Reply
  | .failure cause => ⟨cause.kind.status, failureContent cause⟩
  | .path fault => ⟨400, .text fault.message⟩

/-! ## Headers -/

/-- The text of a response. -/
def Content.body : Content → String
  | .none => ""
  | .text plain => plain
  | .json written => String.ofList written

/-- The header that says what a response is. -/
def Content.headers : Content → List (String × String)
  | .none => []
  | .text _ => [("content-type", "text/plain; charset=utf-8")]
  | .json _ => [("content-type", "application/json")]

/-- The headers by which pages from anywhere may use the service. -/
def sharingHeaders : List (String × String) :=
  [("access-control-allow-origin", "*"),
    ("vary", "origin, access-control-request-method, access-control-request-headers")]

/-- The headers of the answer to a question about what is allowed. -/
def preflightHeaders : List (String × String) :=
  [("access-control-allow-methods", "*"), ("access-control-allow-headers", "*")]

/-- The header with the length of a body in bytes. -/
def lengthHeader (body : String) : String × String :=
  ("content-length", Text.decimal body.utf8ByteSize)

/-- A response with a reply and further headers. -/
def Reply.toResponse (reply : Reply) (headers : List (String × String)) : Response where
  status := reply.status
  headers := reply.content.headers ++ lengthHeader reply.content.body :: headers ++ sharingHeaders
  body := reply.content.body

/-- A response without its body. -/
def Response.withoutBody (response : Response) : Response :=
  { response with body := "" }

/-- The header that lists the methods of a resource, if there is one. -/
def allowHeaders : Option Resource → List (String × String)
  | some resource => [("allow", resource.allowed)]
  | none => []

/-- Answers a request. -/
def respond (ttl : Nat) (now : Instant) (request : Request) : ServiceRoutine Response :=
  let resource? := Resource.ofPath? request.path
  if request.method = .options then
    return Reply.toResponse ⟨200, .none⟩ (allowHeaders resource? ++ preflightHeaders)
  else
    match resource? with
    | none => return Reply.toResponse ⟨404, .none⟩ []
    | some resource =>
      if resource.accepts request.method then do
        let response ←
          match ← (handle ttl now request resource).run with
          | .ok reply => pure (reply.toResponse [])
          | .error refusal => pure (refusal.reply.toResponse [])
        return if request.method = .head then response.withoutBody else response
      else
        return Reply.toResponse ⟨405, .none⟩ (allowHeaders (some resource))

end FishMarket.Http
