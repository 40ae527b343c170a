import FishMarket.Record.Datum

/-! # Parties

Fishermen, who bring items, and buyers, who bid for them. Both are registered elsewhere; the market
knows their names.
-/

namespace FishMarket

open Calendar

/-- A fisherman. -/
structure Fisherman where
  id : Int
  name : String
  createdAt : Instant
deriving DecidableEq, Repr, Inhabited

instance : Recorded Fisherman where
  fields := [.required "id" .int64, .required "name" .text, .required "created_at" .instant]
  data fisherman := [.whole fisherman.id, .text fisherman.name, .instant fisherman.createdAt]
  ofData?
    | [.whole id, .text name, .instant createdAt] => some { id, name, createdAt }
    | _ => none

/-- A buyer. -/
structure Buyer where
  id : Int
  name : String
  createdAt : Instant
deriving DecidableEq, Repr, Inhabited

instance : Recorded Buyer where
  fields := [.required "id" .int64, .required "name" .text, .required "created_at" .instant]
  data buyer := [.whole buyer.id, .text buyer.name, .instant buyer.createdAt]
  ofData?
    | [.whole id, .text name, .instant createdAt] => some { id, name, createdAt }
    | _ => none

end FishMarket
