import FishMarket.Proofs.Market.Stability
import FishMarket.Proofs.Record.Range
import FishMarket.Proofs.Service.Plain

/-! # What may be cached

Items, buyers and fishermen are what the service caches. Most calls leave their rows as they are. If
what is added is within the ranges of its fields, then whatever is read from the written form of a
row is that row, and every row whose id is a proper one is read back.
-/

namespace FishMarket

open Calendar

namespace Market

variable {market : Market} {call : StoreCall}

/-- Whether the rows that may be cached are the same in two markets. -/
structure SameRows (market after : Market) : Prop where
  items : after.items = market.items
  buyers : after.buyers = market.buyers
  fishermen : after.fishermen = market.fishermen

theorem SameRows.refl (market : Market) : market.SameRows market := ⟨rfl, rfl, rfl⟩

theorem sameRows_writeAuctionStatus (market : Market) (id : Int) (status : AuctionStatus)
    (now : Instant) : market.SameRows (market.writeAuctionStatus id status now).2 := by
  unfold writeAuctionStatus
  split
  next => exact .refl _
  next => split <;> exact ⟨rfl, rfl, rfl⟩

/-- A quiet call has to do with venues and auctions only. -/
theorem sameRows_answer (hquiet : call.isQuiet = true) :
    market.SameRows (market.answer call).2 := by
  cases call with
  | createVenue venue now => exact ⟨rfl, rfl, rfl⟩
  | softDeleteVenue id now =>
      simp only [answer, softDeleteVenue]
      split
      next => exact .refl _
      next => split <;> exact ⟨rfl, rfl, rfl⟩
  | createAuction auction now =>
      simp only [answer, createAuction]
      split <;> exact ⟨rfl, rfl, rfl⟩
  | updateAuctionStatus id status now => exact market.sameRows_writeAuctionStatus id status now
  | completeAuction id now =>
      simp only [answer, completeAuction]
      split
      next => exact .refl _
      next =>
        split
        next => exact .refl _
        next => exact market.sameRows_writeAuctionStatus id _ now
  | begin | commit | rollback | abandon | deleteAuction | createItem | updateItemStatus
  | setItemStatusIn | insertBidIn | createBuyer | createFisherman => cases hquiet
  | findVenue | listVenues | findAuction | listAuctions | listOpenAuctions | findItem
  | listItemListings | listBidsForItem | highestBid | buyerTotals | findBuyer | findFisherman =>
      exact .refl _

/-! ## Parties -/

/-- No buyer is ever changed or removed. -/
theorem buyer_stable (id : Int) (buyer : Buyer) :
    Stable fun market => market.buyers.find? id = some buyer where
  change := by
    intro market after named hfound hconsistent hchange
    obtain ⟨-, -, -, hnew, -⟩ := hconsistent.numbered.find?_next hconsistent.filed
    cases hchange with
    | buyerAdded added hid => exact Table.find?_insert_of_new (hid ▸ hnew) hfound added
    | _ => exact hfound
  committed hfound _ _ := by
    rw [committed_eq]
    exact hfound

/-- No fisherman is ever changed or removed. -/
theorem fisherman_stable (id : Int) (fisherman : Fisherman) :
    Stable fun market => market.fishermen.find? id = some fisherman where
  change := by
    intro market after named hfound hconsistent hchange
    obtain ⟨-, -, -, -, hnew⟩ := hconsistent.numbered.find?_next hconsistent.filed
    cases hchange with
    | fishermanAdded added hid => exact Table.find?_insert_of_new (hid ▸ hnew) hfound added
    | _ => exact hfound
  committed hfound _ _ := by
    rw [committed_eq]
    exact hfound

end Market

/-! ## Ranges -/

/-- Whether what a call adds is within the ranges of its fields. -/
def StoreCall.InRange : StoreCall → Prop
  | .createItem item now => item.InRange ∧ now.Readable
  | .createBuyer _ now => now.Readable
  | .createFisherman _ now => now.Readable
  | _ => True

theorem StoreCall.inRange_of_isQuiet {call : StoreCall} (hquiet : call.isQuiet = true) :
    call.InRange := by
  cases call <;> first | exact trivial | cases hquiet

section

open Recorded

theorem Item.fits_iff (item : Item) : Fits item ↔
    (Datum.whole item.id).Fits .int64 ∧ (Datum.whole item.auctionId).Fits .int64 ∧
      (Datum.whole item.fishermanId).Fits .int64 ∧ (Datum.whole item.quantity).Fits .int32 ∧
      (Datum.whole item.sortOrder).Fits .int32 ∧ item.createdAt.date.Representable := by
  simp [Fits, pairs, fields, data, Field.required, Datum.Fits]

theorem Buyer.fits_iff (buyer : Buyer) : Fits buyer ↔
    (Datum.whole buyer.id).Fits .int64 ∧ buyer.createdAt.date.Representable := by
  simp [Fits, pairs, fields, data, Field.required, Datum.Fits]

theorem Fisherman.fits_iff (fisherman : Fisherman) : Fits fisherman ↔
    (Datum.whole fisherman.id).Fits .int64 ∧ fisherman.createdAt.date.Representable := by
  simp [Fits, pairs, fields, data, Field.required, Datum.Fits]

theorem Item.legible_iff (item : Item) : Legible item ↔ item.createdAt.time.OnMinute := by
  simp [Legible, pairs, fields, data, Field.required, Datum.Legible]

theorem Buyer.legible_iff (buyer : Buyer) : Legible buyer ↔ buyer.createdAt.time.OnMinute := by
  simp [Legible, pairs, fields, data, Field.required, Datum.Legible]

theorem Fisherman.legible_iff (fisherman : Fisherman) :
    Legible fisherman ↔ fisherman.createdAt.time.OnMinute := by
  simp [Legible, pairs, fields, data, Field.required, Datum.Legible]

/-! Another status does not take an item out of range. -/

theorem Item.fits_status {item : Item} (hfits : Fits item) (status : ItemStatus) :
    Fits { item with status := status } :=
  (Item.fits_iff _).mpr ((Item.fits_iff item).mp hfits)

theorem Item.legible_status {item : Item} (hlegible : Legible item) (status : ItemStatus) :
    Legible { item with status := status } :=
  (Item.legible_iff _).mpr ((Item.legible_iff item).mp hlegible)

end

/-- Whether a row under an id is within the ranges of its fields, provided that the id is. -/
structure Recorded.RangedUnder {α : Type} [Recorded α] (id : Int) (row : α) : Prop where
  legible : Legible row
  fits : id ≤ Text.maxInt64 → Fits row

namespace Market

variable {market : Market} {call : StoreCall}

/-- Whether every row that may be cached is within the ranges of its fields, provided that its id
is. -/
structure Ranged (market : Market) : Prop where
  items : ∀ id item, market.items.find? id = some item → Recorded.RangedUnder id item
  buyers : ∀ id buyer, market.buyers.find? id = some buyer → Recorded.RangedUnder id buyer
  fishermen : ∀ id fisherman, market.fishermen.find? id = some fisherman →
    Recorded.RangedUnder id fisherman

namespace Ranged

theorem initial : Market.initial.Ranged := by
  constructor <;> exact nofun

theorem sameRows {after : Market} (hranged : market.Ranged) (hsame : market.SameRows after) :
    after.Ranged := by
  constructor
  · exact hsame.items ▸ hranged.items
  · exact hsame.buyers ▸ hranged.buyers
  · exact hsame.fishermen ▸ hranged.fishermen

theorem withStatus (hranged : market.Ranged) {id : Int} {item : Item}
    (hitem : market.items.find? id = some item) (status : ItemStatus) :
    Recorded.RangedUnder id { item with status := status } := by
  obtain ⟨hlegible, hfits⟩ := hranged.items id item hitem
  exact ⟨Item.legible_status hlegible status, fun hid => Item.fits_status (hfits hid) status⟩

theorem nextId_fits (hconsistent : market.Consistent) {id : Int} (hnext : id = market.nextId)
    (hid : id ≤ Text.maxInt64) : (Datum.whole market.nextId).Fits .int64 := by
  subst hnext
  have hpositive : 0 < market.nextId := Int.lt_add_one_of_le hconsistent.numbered.counted
  exact ⟨Int.le_trans (by decide : Text.minInt64 ≤ 0) (Int.le_of_lt hpositive), hid⟩

theorem createItem (hranged : market.Ranged) (hconsistent : market.Consistent) {new : NewItem}
    {now : Instant} (hnew : new.InRange) (hnow : now.Readable) :
    (market.createItem new now).2.Ranged := by
  unfold Market.createItem
  extract_lets item
  split
  next =>
    refine { hranged with items := fun id row hrow => ?_ }
    rw [Table.find?_insert] at hrow
    split at hrow
    next hnext =>
      obtain rfl := Option.some.inj hrow
      refine ⟨(Item.legible_iff item).mpr hnow.time, fun hid => ?_⟩
      exact (Item.fits_iff item).mpr ⟨nextId_fits hconsistent hnext hid, hnew.auctionId,
        hnew.fishermanId, hnew.quantity, hnew.sortOrder, hnow.date⟩
    next => exact hranged.items id row hrow
  next => exact { hranged with }

theorem createBuyer (hranged : market.Ranged) (hconsistent : market.Consistent) (name : String)
    {now : Instant} (hnow : now.Readable) : (market.createBuyer name now).2.Ranged := by
  refine { hranged with buyers := fun id row hrow => ?_ }
  rw [Market.createBuyer, Table.find?_insert] at hrow
  split at hrow
  next hnext =>
    obtain rfl := Option.some.inj hrow
    refine ⟨(Buyer.legible_iff _).mpr hnow.time, fun hid => ?_⟩
    exact (Buyer.fits_iff _).mpr ⟨nextId_fits hconsistent hnext hid, hnow.date⟩
  next => exact hranged.buyers id row hrow

theorem createFisherman (hranged : market.Ranged) (hconsistent : market.Consistent)
    (name : String) {now : Instant} (hnow : now.Readable) :
    (market.createFisherman name now).2.Ranged := by
  refine { hranged with fishermen := fun id row hrow => ?_ }
  rw [Market.createFisherman, Table.find?_insert] at hrow
  split at hrow
  next hnext =>
    obtain rfl := Option.some.inj hrow
    refine ⟨(Fisherman.legible_iff _).mpr hnow.time, fun hid => ?_⟩
    exact (Fisherman.fits_iff _).mpr ⟨nextId_fits hconsistent hnext hid, hnow.date⟩
  next => exact hranged.fishermen id row hrow

theorem deleteAuction (hranged : market.Ranged) (id : Int) :
    (market.deleteAuction id).2.Ranged := by
  unfold Market.deleteAuction
  split
  next => exact hranged
  next =>
    split
    next => exact hranged
    next =>
      refine { hranged with items := fun other item hitem => ?_ }
      rw [Table.find?_filter] at hitem
      exact hranged.items other item (Option.filter_eq_some_iff.mp hitem).1

theorem updateItemStatus (hranged : market.Ranged) (id : Int) (status : ItemStatus) :
    (market.updateItemStatus id status).2.Ranged := by
  unfold Market.updateItemStatus
  split
  next => exact hranged
  next item hitem =>
    split
    next =>
      refine { hranged with items := fun other row hrow => ?_ }
      rw [Table.find?_modify] at hrow
      split at hrow
      next hsame =>
        subst hsame
        rw [hitem, Option.map_some] at hrow
        exact Option.some.inj hrow ▸ hranged.withStatus hitem status
      next => exact hranged.items other row hrow
    next => exact hranged

theorem commit (hranged : market.Ranged) (transaction : TransactionId) :
    (market.commit transaction).2.Ranged := by
  rcases market.commit_cases transaction with ⟨failure, heq⟩ | ⟨-, heq⟩
  · rw [heq]
    exact hranged.sameRows ⟨rfl, rfl, rfl⟩
  · rw [heq]
    constructor
    · intro id row hrow
      obtain ⟨status, hcommitted⟩ := market.find?_committed_item transaction id
      obtain ⟨item, hitem, rfl⟩ := Option.map_eq_some_iff.mp (hcommitted.symm.trans hrow)
      exact hranged.withStatus hitem _
    · rw [committed_eq]
      exact hranged.buyers
    · rw [committed_eq]
      exact hranged.fishermen

/-- Rows stay within range if what is added is. -/
theorem answer (hranged : market.Ranged) (hconsistent : market.Consistent) (hcall : call.InRange) :
    (market.answer call).2.Ranged := by
  cases call with
  | createItem item now => exact hranged.createItem hconsistent hcall.1 hcall.2
  | createBuyer name now => exact hranged.createBuyer hconsistent name hcall
  | createFisherman name now => exact hranged.createFisherman hconsistent name hcall
  | deleteAuction id => exact hranged.deleteAuction id
  | updateItemStatus id status => exact hranged.updateItemStatus id status
  | commit transaction => exact hranged.commit transaction
  | begin | rollback | abandon => exact hranged.sameRows ⟨rfl, rfl, rfl⟩
  | setItemStatusIn transaction id status =>
      simp only [Market.answer, setItemStatusIn]
      split <;> exact hranged.sameRows ⟨rfl, rfl, rfl⟩
  | insertBidIn transaction place now =>
      simp only [Market.answer, insertBidIn]
      split
      next => exact hranged.sameRows ⟨rfl, rfl, rfl⟩
      next => split <;> exact hranged.sameRows ⟨rfl, rfl, rfl⟩
  | _ => exact hranged.sameRows (sameRows_answer rfl)

end Ranged

end Market

end FishMarket
