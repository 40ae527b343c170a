import FishMarket.Command
import FishMarket.Proofs.Routine
import FishMarket.Query

/-! # What actions are put together from

A property that carries over to whatever is put together from actions holds of a command as soon as
it holds of what the command does step by step. What these steps are is said here once for each
command that decides between them.
-/

namespace FishMarket

open Calendar
open Routine (Composes)

variable {α : Type} {property : (α : Type) → Action α → Prop}

namespace Routine.Composes

theorem ended (hcomposes : Composes property) (outcome : Except Failure α) :
    property α (Action.ofExcept outcome) := by
  cases outcome with
  | ok value => exact hcomposes.returned value
  | error failure => exact hcomposes.thrown failure

theorem found (hcomposes : Composes property) (subject : Subject) (found? : Option α) :
    property α (Action.found subject found?) := by
  cases found? with
  | none => exact hcomposes.thrown _
  | some value => exact hcomposes.returned value

theorem lookup (hcomposes : Composes property) {look : Action (Option α)} (subject : Subject)
    (hlook : property (Option α) look) : property α (look >>= Action.found subject) :=
  hcomposes.andThen hlook (hcomposes.found subject)

theorem forget (hcomposes : Composes property) {key : String}
    (hdelete : property _ (Action.cache (.delete key))) : property Unit (Action.forget key) :=
  hcomposes.andThen hdelete fun _ => hcomposes.returned ()

/-- Reading through the cache asks for what is under the key, and otherwise what the loading asks
and that the record be kept under the key. -/
theorem readThrough [Recorded α] (hcomposes : Composes property) {key : String} {ttl : Nat}
    {load : Action (Option α)} (hget : property _ (Action.cache (.get key)))
    (hload : property (Option α) load)
    (hset : ∀ text, property _ (Action.cache (.set key text ttl))) :
    property (Option α) (Action.readThrough key ttl load) := by
  have hcached : property _ (Action.cached? α key) := by
    refine hcomposes.andThen hget fun answer => ?_
    split
    next => exact hcomposes.returned _
    next => exact hcomposes.returned _
    next => split <;> exact hcomposes.returned _
  refine hcomposes.andThen hcached fun cached => ?_
  split
  next => exact hcomposes.returned _
  next =>
    refine hcomposes.andThen hload fun loaded => ?_
    cases loaded with
    | none => exact hcomposes.returned none
    | some record =>
        have hremember : property Unit (Action.remember key record ttl) :=
          hcomposes.andThen (hset _) fun _ => hcomposes.returned ()
        exact hcomposes.andThen hremember fun _ => hcomposes.returned _

end Routine.Composes

section

variable (hcomposes : Composes property)

include hcomposes

/-! ## Commands -/

namespace Command

theorem createVenue_composes {venue : NewVenue} {now : Instant}
    (hcreate : property _ (Action.store (.createVenue venue now))) :
    property Venue (createVenue venue now) := by
  unfold createVenue
  exact hcomposes.checked hcreate

theorem createAuction_composes {auction : NewAuction} {now : Instant}
    (hfind : property _ (Action.store (.findVenue auction.venueId)))
    (hcreate : property _ (Action.store (.createAuction auction now))) :
    property Auction (createAuction auction now) := by
  unfold createAuction
  extract_lets create checkTimes
  have hcreate : property Auction (create ()) :=
    hcomposes.andThen (hcomposes.lookup _ hfind) fun _ => hcreate
  have htimes : property Auction (checkTimes ()) := by
    unfold checkTimes
    split
    next => exact hcomposes.checked hcreate
    next => exact hcreate
  split
  next => exact hcomposes.checked htimes
  next => exact htimes

theorem updateAuctionStatus_composes {id : Int} (status : String) {now : Instant}
    (hfind : property _ (Action.store (.findAuction id)))
    (hupdate : ∀ status, property _ (Action.store (.updateAuctionStatus id status now))) :
    property Auction (updateAuctionStatus id status now) := by
  refine hcomposes.andThen (hcomposes.ended _) fun status => ?_
  refine hcomposes.andThen (hcomposes.lookup _ hfind) fun current => ?_
  refine hcomposes.andThen (hcomposes.ended _) fun _ => ?_
  refine hcomposes.andThen (hupdate status) fun written => ?_
  cases written with
  | some auction => exact hcomposes.returned auction
  | none => exact hcomposes.andThen (hcomposes.lookup _ hfind) fun _ => hcomposes.thrown _

theorem deleteAuction_composes {id : Int} (hlist : property _ (Action.store (.listItemListings id)))
    (hdelete : property _ (Action.store (.deleteAuction id)))
    (hforget : ∀ item, property _ (Action.forget (Cache.itemKey item))) :
    property Unit (deleteAuction id) := by
  refine hcomposes.andThen hlist fun listings => hcomposes.andThen hdelete fun _ => ?_
  exact hcomposes.forM listings fun listing => hforget listing.item.id

theorem createItem_composes {item : NewItem} {now : Instant}
    (hauction : property _ (Action.store (.findAuction item.auctionId)))
    (hfisherman : property _ (Action.store (.findFisherman item.fishermanId)))
    (hcreate : property _ (Action.store (.createItem item now))) :
    property Item (createItem item now) := by
  unfold createItem
  refine hcomposes.checked (hcomposes.checked (hcomposes.checked ?_))
  refine hcomposes.andThen (hcomposes.lookup _ hauction) fun _ => ?_
  exact hcomposes.andThen (hcomposes.lookup _ hfisherman) fun _ => hcreate

theorem updateItemStatus_composes {id : Int} (status : String)
    (hfind : property _ (Action.store (.findItem id)))
    (hupdate : ∀ status, property _ (Action.store (.updateItemStatus id status)))
    (hforget : property _ (Action.forget (Cache.itemKey id))) :
    property Item (updateItemStatus id status) := by
  refine hcomposes.andThen (hcomposes.ended _) fun status => ?_
  refine hcomposes.andThen (hcomposes.lookup _ hfind) fun current => ?_
  refine hcomposes.checked (hcomposes.andThen (hupdate status) fun written => ?_)
  cases written with
  | some item => exact hcomposes.andThen hforget fun _ => hcomposes.returned item
  | none => exact hcomposes.andThen (hcomposes.lookup _ hfind) fun _ => hcomposes.thrown _

end Command

/-! ## Queries -/

theorem Query.reconcile_composes {auction : Auction} {now : Instant}
    (hcomplete : property _ (Action.store (.completeAuction auction.id now))) :
    property Auction (reconcile auction now) := by
  unfold reconcile
  split
  next => exact hcomposes.lookup _ hcomplete
  next => exact hcomposes.returned auction

end

end FishMarket
