import FishMarket.Market.Basic

/-! # Venues and parties in memory -/

namespace FishMarket.Market

open Calendar

/-- Adds a venue. -/
def createVenue (market : Market) (new : NewVenue) (now : Instant) : Venue × Market :=
  let venue : Venue := {
    id := market.nextId
    name := new.name
    location := new.location
    description := new.description
    createdAt := now
    deletedAt? := none }
  (venue, { market.takeId with venues := market.venues.insert venue.id venue })

/-- A venue that has not been given up. -/
def findVenue (market : Market) (id : Int) : Option Venue :=
  (market.venues.find? id).filter Venue.isVisible

/-- The venues that have not been given up, in the order of their ids. -/
def listVenues (market : Market) : List Venue :=
  market.venues.values.filter Venue.isVisible

/-- Gives up a venue, unless there are bids on items offered there. -/
def softDeleteVenue (market : Market) (id : Int) (now : Instant) :
    Except Failure Unit × Market :=
  if (market.findVenue id).isNone then (.error (.notFound (.venue id)), market)
  else if market.venueHasBids id then (.error (.conflict (.venueHasBids id)), market)
  else
    (.ok (), { market with
      venues := market.venues.modify id fun venue => { venue with deletedAt? := some now } })

/-- Adds a buyer. -/
def createBuyer (market : Market) (name : String) (now : Instant) : Buyer × Market :=
  let buyer : Buyer := { id := market.nextId, name := name, createdAt := now }
  (buyer, { market.takeId with buyers := market.buyers.insert buyer.id buyer })

/-- Adds a fisherman. -/
def createFisherman (market : Market) (name : String) (now : Instant) : Fisherman × Market :=
  let fisherman : Fisherman := { id := market.nextId, name := name, createdAt := now }
  (fisherman, { market.takeId with fishermen := market.fishermen.insert fisherman.id fisherman })

end FishMarket.Market
