import FishMarket.Proofs.Service.Weather
import FishMarket.Proofs.Settlement.Progress

/-! # Placing a bid alone

If nothing else happens in the meantime, a valid bid on an item that is there is always placed: what
is staged for it is what the commit finds. In all other cases nothing of it is left on record.
-/

namespace FishMarket

open Calendar

namespace Action

theorem run_store_alone (call : StoreCall) (market : Market) :
    (store call).run.run Market.alone market = market.answer call :=
  rfl

theorem run_attempt_alone {α : Type} (action : Action α) (market : Market) :
    action.attempt.run.run Market.alone market =
      (.ok (action.run.run Market.alone market).1, (action.run.run Market.alone market).2) :=
  Routine.run_bind Market.alone action.run _ market

end Action

/-- The bid that is recorded if one is to be placed next. -/
def Market.nextBid (market : Market) (place : PlaceBid) (now : Instant) : Bid where
  id := market.nextId
  itemId := place.itemId
  buyerId := place.buyerId
  price := place.price
  createdAt := now

namespace Command

variable {place : PlaceBid} {now : Instant} {market : Market}

/-! ## The two writes -/

theorem settle_alone_of_missing (market : Market) (transaction : TransactionId)
    (hmissing : market.items.contains place.itemId = false) :
    (settle transaction place now).run.run Market.alone market =
      (.error (.notFound (.item place.itemId)), market) := by
  have hmark : market.answer (.setItemStatusIn transaction place.itemId .sold) =
      (.error (.notFound (.item place.itemId)), market) := by
    simp [Market.answer, Market.setItemStatusIn, hmissing]
  rw [settle, Action.run_bind, Action.run_store_alone, hmark]

theorem settle_alone (market : Market) (transaction : TransactionId)
    (hitem : market.items.contains place.itemId = true)
    (hbuyer : market.buyers.contains place.buyerId = true)
    (hwilling : market.refuseNextBid = false) :
    (settle transaction place now).run.run Market.alone market =
      (.ok (market.nextBid place now),
        (market.stage transaction (.itemStatus place.itemId .sold)).takeId.stage transaction
          (.bid (market.nextBid place now))) := by
  have hmark : market.answer (.setItemStatusIn transaction place.itemId .sold) =
      (.ok (), market.stage transaction (.itemStatus place.itemId .sold)) := by
    simp [Market.answer, Market.setItemStatusIn, hitem]
  rw [settle, Action.run_bind, Action.run_store_alone, hmark]
  dsimp only
  rw [Action.run_store_alone]
  simp [Market.answer, Market.insertBidIn, Market.stage, hitem, hbuyer, hwilling, Market.nextBid,
    Market.nextId]

/-! ## The whole -/

/-- A bid that is not valid is refused before anything is done. -/
theorem placeBid_alone_of_invalid {failure : Failure} (hinvalid : place.validate = .error failure) :
    (placeBid place now).run.run Market.alone market = (.error failure, market) := by
  rw [placeBid, hinvalid]
  rfl

/-- What becomes of a valid bid is decided by its two writes and the commit. -/
theorem placeBid_alone_of_valid (hvalid : place.validate = .ok ()) :
    (placeBid place now).run.run Market.alone market =
      match (settle market.begin.1 place now).run.run Market.alone market.begin.2 with
      | (.ok placed, settled) =>
        ((settled.commit market.begin.1).1.map fun _ => placed, (settled.commit market.begin.1).2)
      | (.error failure, settled) => (.error failure, settled.close market.begin.1) := by
  rw [placeBid, hvalid, Action.run_bind]
  dsimp only [Action.ofExcept, ExceptT.run_mk, Routine.run]
  rw [Action.run_bind, Action.run_store_alone]
  dsimp only [Market.answer]
  rw [Action.run_bind, Action.run_attempt_alone]
  rcases (settle market.begin.1 place now).run.run Market.alone market.begin.2 with
    ⟨failure | placed, settled⟩
  · rfl
  · dsimp only
    rw [Action.run_bind, Action.run_store_alone]
    dsimp only [Market.answer]
    rcases settled.commit market.begin.1 with ⟨failure | _, after⟩ <;> rfl

/-- A bid on an item that is not there is rolled back. -/
theorem placeBid_alone_of_missing (hvalid : place.validate = .ok ())
    (hmissing : market.items.contains place.itemId = false) :
    (placeBid place now).run.run Market.alone market =
      (.error (.notFound (.item place.itemId)), market.begin.2.close market.begin.1) := by
  rw [placeBid_alone_of_valid hvalid, settle_alone_of_missing market.begin.2 _ hmissing]

/-- A bid on an item that is there is recorded, and the item is sold. -/
theorem placeBid_alone (hvalid : place.validate = .ok ())
    (hitem : market.items.contains place.itemId = true)
    (hbuyer : market.buyers.contains place.buyerId = true)
    (hwilling : market.refuseNextBid = false) :
    ∃ after, (placeBid place now).run.run Market.alone market =
        (.ok (market.nextBid place now), after) ∧
      after.entities = market.entities.settle (market.nextBid place now) := by
  let bid := market.nextBid place now
  let marked := market.begin.2.stage market.begin.1 (.itemStatus bid.itemId .sold)
  let settled := marked.takeId.stage market.begin.1 (.bid bid)
  have hfits : settled.Fits (.staged market.begin.1 bid) :=
    (market.fits_begun.mark bid.itemId).stage
  have hpresent : settled.items.contains bid.itemId = true := hitem
  have hcommit : settled.commit market.begin.1 = (.ok (), settled.committed market.begin.1) := by
    have hready : settled.orphan? (settled.writesOf market.begin.1) = none := by
      rw [hfits.writesOf_eq]
      simp [Market.orphan?, StagedWrite.item, hpresent]
    rw [Market.commit, hready]
    rfl
  refine ⟨settled.committed market.begin.1, ?_, hfits.entities_committed⟩
  rw [placeBid_alone_of_valid hvalid, settle_alone market.begin.2 _ hitem hbuyer hwilling]
  exact congrArg (fun ended => (ended.1.map fun _ => bid, ended.2)) hcommit

end Command

end FishMarket
