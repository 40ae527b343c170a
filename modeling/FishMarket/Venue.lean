import FishMarket.Record.Datum

/-! # Venues

The places where auctions are held. A venue that is given up keeps its row and gets a date of
deletion, since the auctions held there stay on record.
-/

namespace FishMarket

open Calendar

/-- A venue. -/
structure Venue where
  id : Int
  name : String
  location : String
  description : String
  createdAt : Instant
  deletedAt? : Option Instant
deriving DecidableEq, Repr, Inhabited

/-- Whether a venue has not been given up. -/
def Venue.isVisible (venue : Venue) : Bool :=
  venue.deletedAt?.isNone

instance : Recorded Venue where
  fields := [.required "id" .int64, .required "name" .text, .required "location" .text,
    .required "description" .text, .required "created_at" .instant,
    .optional "deleted_at" .instant]
  data venue := [.whole venue.id, .text venue.name, .text venue.location,
    .text venue.description, .instant venue.createdAt, .ofOption .instant venue.deletedAt?]
  ofData?
    | [.whole id, .text name, .text location, .text description, .instant createdAt, deletedAt] =>
      deletedAt.instant?.map fun deletedAt? =>
        { id, name, location, description, createdAt, deletedAt? }
    | _ => none

/-- A venue to be created. -/
structure NewVenue where
  name : String
  location : String
  description : String
deriving DecidableEq, Repr, Inhabited

instance : Recorded NewVenue where
  fields := [.required "name" .text, .required "location" .text,
    .defaulted "description" .text (.text "")]
  data venue := [.text venue.name, .text venue.location, .text venue.description]
  ofData?
    | [.text name, .text location, .text description] => some { name, location, description }
    | _ => none

end FishMarket
