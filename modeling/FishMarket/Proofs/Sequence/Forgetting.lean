import FishMarket.Proofs.Floor.Errands
import FishMarket.Proofs.Service.Weather

/-! # Errands that only forget

Of all errands only three read through the cache: looking for an item, for a buyer and for a
fisherman. The others come to what they would come to without a cache, whatever the weather.
-/

namespace FishMarket

open Calendar
open ServiceRoutine (Forgets)

namespace Command

theorem deleteAuction_forgets (id : Int) : Forgets (deleteAuction id).run :=
  deleteAuction_composes Forgets.composes (.store _) (.store _) fun _ => .forget _

theorem createItem_forgets (item : NewItem) (now : Instant) :
    Forgets (createItem item now).run :=
  .of_asks (createItem_asks (fun _ => ServiceCall.IsQuiet.isStore) trivial)

theorem updateItemStatus_forgets (id : Int) (status : String) :
    Forgets (updateItemStatus id status).run :=
  updateItemStatus_composes Forgets.composes status (.store _) (fun _ => .store _) (.forget _)

theorem placeBid_forgets (place : PlaceBid) (now : Instant) :
    Forgets (placeBid place now).run := by
  refine .andThen (.of_asks (.ended _)) fun _ => .andThen (.store _) fun transaction => ?_
  refine .andThen ?_ fun settled => ?_
  · refine ServiceRoutine.Forgets.bind ?_ fun _ => trivial
    exact .andThen (.store _) fun _ => .store _
  · cases settled with
    | ok placed => exact .andThen (.store _) fun _ => .andThen (.forget _) fun _ => .returned placed
    | error failure =>
        exact .andThen (ServiceRoutine.Forgets.bind (.store _) fun _ => trivial) fun _ => trivial

end Command

namespace Errand

/-- Whether an errand reads through the cache. -/
def readsThrough : Errand → Bool
  | getItem _ _ => true
  | getBuyer _ _ => true
  | getFisherman _ _ => true
  | _ => false

theorem routine_forgets {errand : Errand} (hreads : errand.readsThrough = false) :
    Forgets errand.routine := by
  cases errand with
  | placeBid place now => exact Command.placeBid_forgets place now
  | deleteAuction id => exact Command.deleteAuction_forgets id
  | createItem item now => exact Command.createItem_forgets item now
  | updateItemStatus id status => exact Command.updateItemStatus_forgets id status
  | getItem | getBuyer | getFisherman => cases hreads
  | direct call hplain => exact .store call
  | _ => exact .of_asks ((routine_quiet rfl).mono fun _ => ServiceCall.IsQuiet.isStore)

end Errand

end FishMarket
