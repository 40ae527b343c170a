import FishMarket.Http.Message
import FishMarket.Http.Path

/-! # Resources

What the paths of the service stand for. Every resource has one method, and those that are read
answer `HEAD` as well. An id at the end of a path may not be empty.
-/

namespace FishMarket.Http

/-- A resource; an id is kept as it stands in the path. -/
inductive Resource where
  | health
  | buyerBids
  | venues
  | venue (id : List Char)
  | auctions
  | auction (id : List Char)
  | auctionItems (id : List Char)
  | auctionStatus (id : List Char)
  | item (id : List Char)
  | itemBids (id : List Char)
  | itemHighestBid (id : List Char)
  | invoices
  | buyer (id : List Char)
  | fisherman (id : List Char)
  | adminVenues
  | adminVenue (id : List Char)
  | adminAuctions
  | adminAuction (id : List Char)
  | adminItems
  | adminItemStatus (id : List Char)
deriving DecidableEq, Repr

namespace Resource

/-- The resource with an id at the end of its path. -/
def withId (resource : List Char → Resource) (id : List Char) : Option Resource :=
  if id.isEmpty then none else some (resource id)

/-- The resource of a path below `/api`, given by the names of its segments and, for each, the
segment itself. -/
def ofApi? (parts : List (List Char)) : Option Resource :=
  match parts.map String.ofList, parts with
  | ["buyer", "bids"], _ => some buyerBids
  | ["venues"], _ => some venues
  | ["venues", _], [_, id] => withId venue id
  | ["auctions"], _ => some auctions
  | ["auctions", _], [_, id] => withId auction id
  | ["auctions", _, "items"], [_, id, _] => some (auctionItems id)
  | ["auctions", _, "status"], [_, id, _] => some (auctionStatus id)
  | ["items", _], [_, id] => withId item id
  | ["items", _, "bids"], [_, id, _] => some (itemBids id)
  | ["items", _, "highest-bid"], [_, id, _] => some (itemHighestBid id)
  | ["invoices"], _ => some invoices
  | ["buyers", _], [_, id] => withId buyer id
  | ["fishermen", _], [_, id] => withId fisherman id
  | ["admin", "venues"], _ => some adminVenues
  | ["admin", "venues", _], [_, _, id] => withId adminVenue id
  | ["admin", "auctions"], _ => some adminAuctions
  | ["admin", "auctions", _], [_, _, id] => withId adminAuction id
  | ["admin", "items"], _ => some adminItems
  | ["admin", "items", _, "status"], [_, _, id, _] => some (adminItemStatus id)
  | _, _ => none

/-- The resource of a path. -/
def ofPath? (path : List Char) : Option Resource :=
  match Path.segments path with
  | [] :: first :: rest =>
    if first = "health".toList ∧ rest = [] then some health
    else if first = "api".toList then ofApi? rest
    else none
  | _ => none

/-- The method of a resource. -/
def method : Resource → Method
  | buyerBids => .post
  | adminVenues => .post
  | adminAuctions => .post
  | adminItems => .post
  | auctionStatus _ => .patch
  | adminItemStatus _ => .patch
  | adminVenue _ => .delete
  | adminAuction _ => .delete
  | _ => .get

/-- Whether a resource answers a method. -/
def accepts (resource : Resource) (method : Method) : Bool :=
  method = resource.method || (method = .head && resource.method = .get)

/-- The methods of a resource, as they are listed for those who use another. -/
def allowed (resource : Resource) : String :=
  match resource.method with
  | .post => "POST"
  | .patch => "PATCH"
  | .delete => "DELETE"
  | _ => "GET,HEAD"

end Resource

end FishMarket.Http
