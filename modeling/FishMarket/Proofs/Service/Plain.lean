import FishMarket.Proofs.Market.Change
import FishMarket.Proofs.Service.Composition
import FishMarket.Query

/-! # Work without transactions

Of all commands only the one that places a bid works with a transaction. The other commands, the
queries and the sweep only make plain calls to the store, and calls to the cache. Most queries do
not write to the store at all: only those that may complete an auction do.
-/

namespace FishMarket

open Calendar

/-- The open transaction that a call of the service names. -/
def ServiceCall.transaction? : ServiceCall → Option TransactionId
  | .store call => call.transaction?
  | .cache _ => none

/-- Whether a call of the service has nothing to do with transactions. -/
def ServiceCall.IsPlain : ServiceCall → Prop
  | .store call => call.IsPlain
  | .cache _ => True

/-- Whether a call only looks at what is stored. -/
def StoreCall.reads : StoreCall → Bool
  | .findVenue _ => true
  | .listVenues => true
  | .findAuction _ => true
  | .listAuctions => true
  | .listOpenAuctions => true
  | .findItem _ => true
  | .listItemListings _ => true
  | .listBidsForItem _ => true
  | .highestBid _ => true
  | .buyerTotals => true
  | .findBuyer _ => true
  | .findFisherman _ => true
  | _ => false

/-- Whether a call has to do with venues and auctions only, or writes nothing at all. The items, the
parties and the transactions stay as they are. -/
def StoreCall.isQuiet : StoreCall → Bool
  | .createVenue _ _ => true
  | .softDeleteVenue _ _ => true
  | .createAuction _ _ => true
  | .updateAuctionStatus _ _ _ => true
  | .completeAuction _ _ => true
  | call => call.reads

theorem StoreCall.isQuiet_of_reads {call : StoreCall} (hreads : call.reads = true) :
    call.isQuiet = true := by
  cases call <;> first | rfl | cases hreads

theorem StoreCall.isPlain_of_isQuiet {call : StoreCall} (hquiet : call.isQuiet = true) :
    call.IsPlain := by
  refine ⟨fun heq => ?_, ?_⟩
  · rw [heq] at hquiet
    cases hquiet
  · cases call <;> first | rfl | cases hquiet

theorem StoreCall.createFisherman_isPlain (name : String) (now : Instant) :
    (StoreCall.createFisherman name now).IsPlain :=
  ⟨nofun, rfl⟩

namespace ServiceCall

/-- Whether a call of the service leaves the store as it is. -/
def IsReading : ServiceCall → Prop
  | .store call => call.reads = true
  | .cache _ => True

/-- Whether a call looks at what is stored, without the cache. -/
def IsLookup : ServiceCall → Prop
  | .store call => call.reads = true
  | .cache _ => False

/-- Whether a call goes to the store. -/
def IsStore : ServiceCall → Prop
  | .store _ => True
  | .cache _ => False

/-- Whether a call is a quiet one to the store. -/
def IsQuiet : ServiceCall → Prop
  | .store call => call.isQuiet = true
  | .cache _ => False

variable {call : ServiceCall}

theorem IsLookup.isReading (hlookup : call.IsLookup) : call.IsReading := by
  cases call with
  | cache call => exact trivial
  | store call => exact hlookup

theorem IsLookup.isQuiet (hlookup : call.IsLookup) : call.IsQuiet := by
  cases call with
  | cache call => exact hlookup
  | store call => exact StoreCall.isQuiet_of_reads hlookup

theorem IsQuiet.isPlain (hquiet : call.IsQuiet) : call.IsPlain := by
  cases call with
  | cache call => exact trivial
  | store call => exact StoreCall.isPlain_of_isQuiet hquiet

theorem IsQuiet.isStore (hquiet : call.IsQuiet) : call.IsStore := by
  cases call with
  | cache call => exact hquiet
  | store call => exact trivial

theorem IsReading.isPlain (hreads : call.IsReading) : call.IsPlain := by
  cases call with
  | cache call => exact trivial
  | store call => exact StoreCall.isPlain_of_isQuiet (StoreCall.isQuiet_of_reads hreads)

end ServiceCall

/-! ## Routines that may fail -/

namespace Routine.Asks

variable {Call : Type} {Answer : Call → Type} {sort : Call → Prop} {α β ε : Type}

theorem ended (outcome : Except ε α) :
    (ExceptT.mk (done outcome) : ExceptT ε (Routine Call Answer) α).run.Asks sort :=
  trivial

theorem returned (value : α) :
    (Pure.pure value : ExceptT ε (Routine Call Answer) α).run.Asks sort :=
  trivial

theorem thrown (failure : ε) : (throw failure : ExceptT ε (Routine Call Answer) α).run.Asks sort :=
  trivial

theorem andThen {first : ExceptT ε (Routine Call Answer) α}
    {next : α → ExceptT ε (Routine Call Answer) β} (hfirst : first.run.Asks sort)
    (hnext : ∀ value, (next value).run.Asks sort) : (first >>= next).run.Asks sort := by
  refine hfirst.bind fun outcome => ?_
  cases outcome with
  | ok value => exact hnext value
  | error failure => exact trivial

theorem composes : Composes fun _ (action : ExceptT ε (Routine Call Answer) _) =>
    action.run.Asks sort :=
  ⟨returned, thrown, andThen⟩

theorem mapM {next : α → ExceptT ε (Routine Call Answer) β} (values : List α)
    (hnext : ∀ value, (next value).run.Asks sort) : (values.mapM next).run.Asks sort :=
  composes.mapM values hnext

variable {routine : ServiceRoutine α}

theorem plain (hreads : routine.Asks ServiceCall.IsReading) : routine.Asks ServiceCall.IsPlain :=
  hreads.mono fun _ => ServiceCall.IsReading.isPlain

theorem plain_of_quiet (hquiet : routine.Asks ServiceCall.IsQuiet) :
    routine.Asks ServiceCall.IsPlain :=
  hquiet.mono fun _ => ServiceCall.IsQuiet.isPlain

theorem reads (hlookup : routine.Asks ServiceCall.IsLookup) :
    routine.Asks ServiceCall.IsReading :=
  hlookup.mono fun _ => ServiceCall.IsLookup.isReading

theorem quiet (hlookup : routine.Asks ServiceCall.IsLookup) : routine.Asks ServiceCall.IsQuiet :=
  hlookup.mono fun _ => ServiceCall.IsLookup.isQuiet

end Routine.Asks

namespace Action

open Routine (Asks)

variable {α : Type} {sort : ServiceCall → Prop}

theorem store_asks {call : StoreCall} (hsort : sort (.store call)) : (store call).run.Asks sort :=
  ⟨hsort, fun _ => trivial⟩

theorem cache_asks {call : CacheCall} (hsort : sort (.cache call)) : (cache call).run.Asks sort :=
  ⟨hsort, fun _ => trivial⟩

theorem found_asks (subject : Subject) (found? : Option α) :
    (found subject found?).run.Asks sort :=
  Asks.composes.found subject found?

theorem lookup_asks {look : Action (Option α)} (subject : Subject) (hlook : look.run.Asks sort) :
    (look >>= found subject).run.Asks sort :=
  Asks.composes.lookup subject hlook

theorem forget_asks {key : String} (hsort : sort (.cache (.delete key))) :
    (forget key).run.Asks sort :=
  Asks.composes.forget (cache_asks hsort)

/-- Reading through the cache asks for what is under the key, and otherwise what the loading asks
and that the record be kept under the key. -/
theorem readThrough_asks [Recorded α] {key : String} {ttl : Nat} {load : Action (Option α)}
    (hget : sort (.cache (.get key))) (hload : load.run.Asks sort)
    (hset : ∀ text, sort (.cache (.set key text ttl))) :
    (readThrough key ttl load).run.Asks sort :=
  Asks.composes.readThrough (cache_asks hget) hload fun text => cache_asks (hset text)

end Action

/-! ## Commands -/

namespace Command

theorem createVenue_quiet (venue : NewVenue) (now : Instant) :
    (createVenue venue now).run.Asks ServiceCall.IsQuiet :=
  createVenue_composes Routine.Asks.composes (Action.store_asks rfl)

theorem deleteVenue_quiet (id : Int) (now : Instant) :
    (deleteVenue id now).run.Asks ServiceCall.IsQuiet :=
  Action.store_asks rfl

theorem createAuction_quiet (auction : NewAuction) (now : Instant) :
    (createAuction auction now).run.Asks ServiceCall.IsQuiet :=
  createAuction_composes Routine.Asks.composes (Action.store_asks rfl) (Action.store_asks rfl)

theorem updateAuctionStatus_quiet (id : Int) (status : String) (now : Instant) :
    (updateAuctionStatus id status now).run.Asks ServiceCall.IsQuiet :=
  updateAuctionStatus_composes Routine.Asks.composes status (Action.store_asks rfl) fun _ =>
    Action.store_asks rfl

/-! The other commands write to the items as well, each in one way. -/

section

variable {sort : ServiceCall → Prop} (hquiet : ∀ call, call.IsQuiet → sort call)

include hquiet

theorem deleteAuction_asks {id : Int} (hdelete : sort (.store (.deleteAuction id)))
    (hforget : ∀ item, sort (.cache (.delete (Cache.itemKey item)))) :
    (deleteAuction id).run.Asks sort :=
  deleteAuction_composes Routine.Asks.composes (Action.store_asks (hquiet _ rfl))
    (Action.store_asks hdelete) fun item => Action.forget_asks (hforget item)

theorem createItem_asks {item : NewItem} {now : Instant}
    (hcreate : sort (.store (.createItem item now))) :
    (createItem item now).run.Asks sort :=
  createItem_composes Routine.Asks.composes (Action.store_asks (hquiet _ rfl))
    (Action.store_asks (hquiet _ rfl)) (Action.store_asks hcreate)

theorem updateItemStatus_asks {id : Int} (status : String)
    (hupdate : ∀ status, sort (.store (.updateItemStatus id status)))
    (hforget : sort (.cache (.delete (Cache.itemKey id)))) :
    (updateItemStatus id status).run.Asks sort :=
  updateItemStatus_composes Routine.Asks.composes status (Action.store_asks (hquiet _ rfl))
    (fun status => Action.store_asks (hupdate status)) (Action.forget_asks hforget)

end

theorem deleteAuction_plain (id : Int) : (deleteAuction id).run.Asks ServiceCall.IsPlain :=
  deleteAuction_asks (fun _ => ServiceCall.IsQuiet.isPlain) ⟨nofun, rfl⟩ fun _ => trivial

theorem createItem_plain (item : NewItem) (now : Instant) :
    (createItem item now).run.Asks ServiceCall.IsPlain :=
  createItem_asks (fun _ => ServiceCall.IsQuiet.isPlain) ⟨nofun, rfl⟩

theorem updateItemStatus_plain (id : Int) (status : String) :
    (updateItemStatus id status).run.Asks ServiceCall.IsPlain :=
  updateItemStatus_asks (fun _ => ServiceCall.IsQuiet.isPlain) status (fun _ => ⟨nofun, rfl⟩)
    trivial

end Command

/-! ## Queries -/

namespace Query

theorem getVenue_lookup (id : Int) : (getVenue id).run.Asks ServiceCall.IsLookup :=
  Action.lookup_asks _ (Action.store_asks rfl)

theorem getAllVenues_lookup : getAllVenues.run.Asks ServiceCall.IsLookup :=
  Action.store_asks rfl

theorem getAuctionItems_lookup (id : Int) : (getAuctionItems id).run.Asks ServiceCall.IsLookup :=
  .andThen (Action.lookup_asks _ (Action.store_asks rfl)) fun _ =>
    Action.store_asks rfl

theorem getItem_reads (ttl : Nat) (id : Int) : (getItem ttl id).run.Asks ServiceCall.IsReading :=
  Action.lookup_asks _
    (Action.readThrough_asks trivial (Action.store_asks rfl) fun _ => trivial)

theorem getItemBids_lookup (id : Int) : (getItemBids id).run.Asks ServiceCall.IsLookup :=
  .andThen (Action.lookup_asks _ (Action.store_asks rfl)) fun _ =>
    Action.store_asks rfl

theorem getHighestBid_lookup (id : Int) : (getHighestBid id).run.Asks ServiceCall.IsLookup :=
  Action.store_asks rfl

theorem getBuyer_reads (ttl : Nat) (id : Int) : (getBuyer ttl id).run.Asks ServiceCall.IsReading :=
  Action.lookup_asks _
    (Action.readThrough_asks trivial (Action.store_asks rfl) fun _ => trivial)

theorem getFisherman_reads (ttl : Nat) (id : Int) :
    (getFisherman ttl id).run.Asks ServiceCall.IsReading :=
  Action.lookup_asks _
    (Action.readThrough_asks trivial (Action.store_asks rfl) fun _ => trivial)

theorem listInvoices_lookup : listInvoices.run.Asks ServiceCall.IsLookup :=
  .andThen (Action.store_asks rfl) fun _ => .ended _

theorem snapshot_lookup : snapshot.run.Asks ServiceCall.IsLookup := by
  refine .andThen (Action.store_asks rfl) fun venues => ?_
  refine .andThen (Action.store_asks rfl) fun auctions => ?_
  refine .andThen (.mapM auctions fun _ => Action.store_asks rfl) fun listings => ?_
  refine .andThen (.mapM _ fun _ => Action.store_asks rfl) fun bids => ?_
  exact .returned _

theorem reconcile_quiet (auction : Auction) (now : Instant) :
    (reconcile auction now).run.Asks ServiceCall.IsQuiet :=
  reconcile_composes Routine.Asks.composes (Action.store_asks rfl)

theorem completeOverdue_quiet (now : Instant) (auctions : List Auction) :
    (completeOverdue now auctions).run.Asks ServiceCall.IsQuiet := by
  induction auctions with
  | nil => exact .returned 0
  | cons auction rest ih =>
      unfold completeOverdue
      split
      next =>
        exact .andThen (Action.store_asks rfl) fun _ => ih.andThen fun _ => .returned _
      next => exact ih

theorem reconcileAll_quiet (now : Instant) :
    (reconcileAll now).run.Asks ServiceCall.IsQuiet :=
  .andThen (Action.store_asks rfl) (completeOverdue_quiet now)

theorem sweep_quiet (now : Instant) : (sweep now).Asks ServiceCall.IsQuiet :=
  (reconcileAll_quiet now).bind fun _ => .pure ()

theorem getAuction_quiet (id : Int) (now : Instant) :
    (getAuction id now).run.Asks ServiceCall.IsQuiet :=
  .andThen (Action.lookup_asks _ (Action.store_asks rfl)) fun auction =>
    reconcile_quiet auction now

theorem getAllAuctions_quiet (now : Instant) :
    (getAllAuctions now).run.Asks ServiceCall.IsQuiet :=
  .andThen (Action.store_asks rfl) fun auctions =>
    .mapM auctions fun auction => reconcile_quiet auction now

end Query

end FishMarket
