import FishMarket.Failure
import FishMarket.Http.MediaType
import FishMarket.Http.Path
import FishMarket.Json.Bytes
import FishMarket.Record.Reader
import FishMarket.Text.Blank

/-! # What a request carries

Who sends the request is taken from a header, which an authority in front of the service has set.
The body is JSON of the wanted shape; text after its end is ignored.
-/

namespace FishMarket.Http

/-- Why a request is not carried out. -/
inductive Refusal where
  | failure (cause : Failure)
  | path (fault : Path.IdFault)
deriving DecidableEq, Repr

/-- Who may send a request. -/
inductive Role where
  | buyer
  | admin
deriving DecidableEq, Repr

namespace Role

/-- The header with the id of the sender. -/
def header : Role → String
  | buyer => "x-buyer-id"
  | admin => "x-admin-id"

/-- The fault of a sender without an id. -/
def missing : Role → SessionFault
  | buyer => .buyerMissing
  | admin => .adminMissing

end Role

namespace Request

/-- The id of the sender: a positive integer, with blanks around it or not. -/
def senderId? (request : Request) (role : Role) : Option Int := do
  let value ← request.header? role.header
  if isVisibleText value then
    let id ← Text.readInt64? (Text.trim value.toList)
    if 0 < id then some id else none
  else none

/-- The id of the sender, who has to be there. -/
def sender (request : Request) (role : Role) : Except Refusal Int :=
  match request.senderId? role with
  | some id => .ok id
  | none => .error (.failure (.unauthorized role.missing))

/-- The longest body in bytes. -/
def greatestBody : Nat := 1048576

/-- Whether a request says that its body is JSON. -/
def saysJson (request : Request) : Bool :=
  match request.header? "content-type" with
  | some value => isVisibleText value && MediaType.isJson value
  | none => false

/-- Refuses the body of a request. -/
def refuseBody {α : Type} (fault : BodyFault) : Except Refusal α :=
  .error (.failure (.validation (.body fault)))

/-- The record in the body of a request. -/
def record (request : Request) (α : Type) [Recorded α] : Except Refusal α :=
  if !request.saysJson then refuseBody .contentType
  else if greatestBody < request.body.size then refuseBody .tooLong
  else
    match Record.readFront α (Json.Bytes.characters request.body) with
    | .ok record => .ok record
    | .error .malformed => refuseBody .malformed
    | .error .mismatch => refuseBody .mismatch

end Request

/-- The id in a path. -/
def pathId (segment : List Char) : Except Refusal Int :=
  match Path.id segment with
  | .ok id => .ok id
  | .error fault => .error (.path fault)

/-! ## Bodies -/

/-- The body of a request to place a bid; the buyer is the sender. -/
structure BidRequest where
  itemId : Int
  price : Int
deriving DecidableEq, Repr

instance : Recorded BidRequest where
  fields := [.required "item_id" .int64, .required "price" .int64]
  data request := [.whole request.itemId, .whole request.price]
  ofData?
    | [.whole itemId, .whole price] => some { itemId, price }
    | _ => none

/-- The body of a request to change a status. -/
structure StatusRequest where
  status : String
deriving DecidableEq, Repr

instance : Recorded StatusRequest where
  fields := [.required "status" .text]
  data request := [.text request.status]
  ofData?
    | [.text status] => some { status }
    | _ => none

end FishMarket.Http
