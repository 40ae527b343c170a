import Mathlib.Data.List.Induction
import FishMarket.Proofs.Floor.Orderly
import FishMarket.Proofs.Market.Deletion
import FishMarket.Proofs.Service.Promises
import FishMarket.Proofs.Settlement.Atomicity

/-! # Settlements and deletions

Somebody deletes the auction of an item while a bid is being placed on the item. Whichever comes
first wins: once the bid is committed the auction and its venue stay, and once the auction is gone
the placement fails, at the latest when its commit looks for the item again.
-/

namespace FishMarket

open Calendar

theorem Service.receive_stable {property : Market → Prop} (hstable : Market.Stable property)
    {service : Service} (hholds : property service.market)
    (hconsistent : service.market.Consistent) (call : ServiceCall) (reception : Reception) :
    property (service.receive call reception).2.market := by
  rcases service.receive_cases call reception with hchange | ⟨transaction, -, hready, heq⟩
  · exact hstable.change hholds hconsistent hchange
  · rw [heq]
    exact hstable.committed hholds hconsistent hready

/-! ## What lasts while a routine is under way -/

/-- Whether it is the routine that makes a call in this turn. -/
def Turn.isOwn : Turn → Bool
  | .own _ => true
  | _ => false

namespace Interleaving

variable {α Phase : Type} {interleaving : Interleaving α}

theorem take_stable {property : Market → Prop} (hstable : Market.Stable property)
    (hholds : property interleaving.service.market)
    (hconsistent : interleaving.service.market.Consistent) (turn : Turn) :
    property (interleaving.take turn).service.market := by
  cases turn with
  | own reception =>
      obtain ⟨⟨acts, rest⟩, service⟩ := interleaving
      cases rest with
      | done value => exact hholds
      | ask call next => exact Service.receive_stable hstable hholds hconsistent call reception
  | other call reception =>
      simp only [take]
      split
      next => exact hholds
      next => exact Service.receive_stable hstable hholds hconsistent call reception
  | refuseBid =>
      have hchange : Market.Change interleaving.service.market none
          (interleaving.take .refuseBid).service.market := .refusalSet true
      exact hstable.change hholds hconsistent hchange
  | wait elapsed => exact hholds

theorem play_stable {property : Market → Prop} (hstable : Market.Stable property)
    (hholds : property interleaving.service.market)
    (hconsistent : interleaving.service.market.Consistent) (turns : List Turn) :
    property (interleaving.play turns).service.market := by
  induction turns generalizing interleaving with
  | nil => exact hholds
  | cons turn rest ih =>
      exact ih (take_stable hstable hholds hconsistent turn)
        (take_stable Market.Consistent.stable hconsistent hconsistent turn)

theorem play_append (interleaving : Interleaving α) (turns later : List Turn) :
    interleaving.play (turns ++ later) = (interleaving.play turns).play later :=
  List.foldl_append

/-- Others do nothing to the course of a routine. -/
theorem course_take_other (interleaving : Interleaving α) (call : ServiceCall)
    (reception : Reception) :
    (interleaving.take (.other call reception)).course = interleaving.course := by
  simp only [take]
  split <;> rfl

theorem keeps_play (interleaving : Interleaving α)
    {contract : Contract ServiceCall ServiceCall.Answer Phase} {final : Phase → α → Prop}
    {start : Phase} (hkeeps : interleaving.course.Keeps contract final start)
    (turns : List Turn) :
    (interleaving.play turns).course.Keeps contract final start := by
  induction turns generalizing interleaving with
  | nil => exact hkeeps
  | cons turn rest ih =>
      apply ih (interleaving.take turn)
      cases turn with
      | own reception => exact hkeeps.advance reception interleaving.service
      | other call reception => exact interleaving.course_take_other call reception ▸ hkeeps
      | refuseBid | wait elapsed => exact hkeeps

/-- With each of its turns a bounded routine has one call less to make. -/
theorem endsWithin_play (interleaving : Interleaving α) {bound : Nat}
    (hbound : interleaving.course.rest.EndsWithin bound) (turns : List Turn) :
    (interleaving.play turns).course.rest.EndsWithin (bound - turns.countP Turn.isOwn) := by
  induction turns generalizing interleaving bound with
  | nil => exact hbound
  | cons turn rest ih =>
      rw [List.countP_cons]
      cases turn with
      | own reception =>
          have hnext := Course.endsWithin_advance hbound reception interleaving.service
          have hrest := ih (interleaving.take (.own reception)) hnext
          rw [if_pos (by rfl), Nat.add_comm, ← Nat.sub_sub]
          exact hrest
      | other call reception =>
          rw [← interleaving.course_take_other call reception] at hbound
          exact ih (interleaving.take (.other call reception)) hbound
      | refuseBid => exact ih (interleaving.take .refuseBid) hbound
      | wait elapsed => exact ih (interleaving.take (.wait elapsed)) hbound

namespace Orderly

variable {place : PlaceBid} {now : Instant}
  {interleaving : Interleaving (Except Failure Bid)}

/-- What the placement has settled stands in the ledger. -/
theorem settled_recorded (horderly : interleaving.Orderly place now)
    (hrecorded : ∀ bid, interleaving.course.settled? = some bid →
      bid ∈ interleaving.service.market.ledger) (turns : List Turn) :
    ∀ bid, (interleaving.play turns).course.settled? = some bid →
      bid ∈ (interleaving.play turns).service.market.ledger := by
  induction turns generalizing interleaving with
  | nil => exact hrecorded
  | cons turn rest ih =>
      refine ih (horderly.take turn) ?_
      have hstays : ∀ bid, interleaving.course.settled? = some bid →
          bid ∈ (interleaving.take turn).service.market.ledger := fun bid hsettled =>
        take_stable (Market.mem_ledger_stable bid) (hrecorded bid hsettled) horderly.consistent turn
      cases turn with
      | other call reception =>
          rw [interleaving.course_take_other call reception]
          exact hstays
      | refuseBid | wait elapsed => exact hstays
      | own reception =>
          obtain ⟨⟨acts, rest⟩, service⟩ := interleaving
          cases rest with
          | done result => exact hstays
          | ask call next =>
              intro bid hsettled
              change (⟨acts ++ [⟨call, reception, service⟩], _⟩ : Course _).settled? = _ at hsettled
              change bid ∈ (service.receive call reception).2.market.ledger
              -- either nothing is settled by this act, or its bid is now the last in the ledger
              rcases horderly.sound.ledger_act (fun _ _ => .places) reception with
                ⟨-, hsame⟩ | ⟨settled, hledger, -, hsome⟩
              · exact hstays bid (hsame.symm.trans hsettled)
              · obtain rfl := Option.some.inj (hsome.symm.trans hsettled)
                exact hledger ▸ List.mem_append_right _ List.mem_cons_self

end Orderly

end Interleaving

/-! ## Failures of a placement -/

/-- The failure that a call to the store is answered with. -/
def ServiceCall.failure? : (call : ServiceCall) → call.Answer → Option Failure
  | .store _, .error failure => some failure
  | _, _ => none

/-- Whether a failure says that something is not there, or that it collides with what is. -/
def Failure.Overtaken (failure : Failure) : Prop :=
  failure.kind = .notFound ∨ failure.kind = .conflict

/-- Whether no fault was injected into an act: it was not refused, and there was no order to refuse
a bid. -/
def Act.Undisturbed (act : Act) : Prop :=
  act.reception = .answered ∧ act.before.market.refuseNextBid = false

namespace Settlement

variable {place : PlaceBid} {now : Instant}

/-- The contract that watches whether all failures so far are those of somebody who was
overtaken. -/
def overtaken : Contract ServiceCall ServiceCall.Answer Prop where
  Permits _ _ := True
  next phase call answer :=
    phase ∧ ∀ failure, call.failure? answer = some failure → failure.Overtaken

/-- Without faults, a call that places a bid fails only because it was overtaken. -/
theorem Places.overtaken {phase : Settlement} {act : Act}
    (hplaces : Places place now phase act.call) (hundisturbed : act.Undisturbed)
    {failure : Failure} (hfails : act.call.failure? act.answer = some failure) :
    failure.Overtaken := by
  obtain ⟨call, reception, before⟩ := act
  obtain ⟨rfl, hrefuse⟩ : reception = .answered ∧ before.market.refuseNextBid = false :=
    hundisturbed
  cases hplaces with
  | begin | rollback | forget => cases hfails
  | mark transaction =>
      simp only [Act.answer, Service.receive, Service.answer, Market.answer,
        Market.setItemStatusIn] at hfails
      split at hfails
      next => cases hfails
      next => exact .inl (Option.some.inj hfails ▸ rfl)
  | stage transaction =>
      simp only [Act.answer, Service.receive, Service.answer, Market.answer, Market.insertBidIn,
        hrefuse] at hfails
      rw [if_neg Bool.false_ne_true] at hfails
      split at hfails
      next => cases hfails
      next => exact .inr (Option.some.inj hfails ▸ rfl)
  | commit transaction bid =>
      simp only [Act.answer, Service.receive, Service.answer, Market.answer,
        Market.commit] at hfails
      split at hfails
      next => exact .inr (Option.some.inj hfails ▸ rfl)
      next => cases hfails

theorem reached_overtaken {α : Type} {course : Course α}
    (hacts : ∀ act ∈ course.acts, ∀ failure,
      act.call.failure? act.answer = some failure → failure.Overtaken) :
    course.reached overtaken True := by
  obtain ⟨acts, rest⟩ := course
  induction acts using List.reverseRecOn with
  | nil => exact trivial
  | append_singleton acts act ih =>
      rw [Course.reached_append]
      exact ⟨ih fun other hmem => hacts other (List.mem_append_left _ hmem),
        hacts act (List.mem_append_right _ List.mem_cons_self)⟩

end Settlement

namespace Command

/-- A placement of a valid bid fails with a failure that one of its calls was answered with. -/
theorem placeBid_overtaken {place : PlaceBid} (hvalid : place.validate = .ok ()) (now : Instant) :
    (placeBid place now).run.Fulfils Settlement.overtaken
      (fun phase result => phase → ∀ failure, result = .error failure → failure.Overtaken)
      True := by
  unfold placeBid
  rw [hvalid]
  refine ⟨trivial, fun begun => ?_⟩
  cases begun with
  | error failure => exact fun hphase _ hresult => hphase.2 _ (Except.error.inj hresult ▸ rfl)
  | ok transaction =>
      refine ⟨trivial, fun marked => ?_⟩
      cases marked with
      | error failure =>
          refine ⟨trivial, fun closed => ?_⟩
          cases closed <;>
            exact fun hphase _ hresult => hphase.1.2 _ (Except.error.inj hresult ▸ rfl)
      | ok =>
          refine ⟨trivial, fun staged => ?_⟩
          cases staged with
          | error failure =>
              refine ⟨trivial, fun closed => ?_⟩
              cases closed <;>
                exact fun hphase _ hresult => hphase.1.2 _ (Except.error.inj hresult ▸ rfl)
          | ok bid =>
              refine ⟨trivial, fun committed => ?_⟩
              cases committed with
              | error failure =>
                  exact fun hphase _ hresult => hphase.2 _ (Except.error.inj hresult ▸ rfl)
              | ok => exact ⟨trivial, fun _ _ _ hresult => nomatch hresult⟩

/-- A placement makes at most five calls. -/
theorem placeBid_endsWithin (place : PlaceBid) (now : Instant) :
    (placeBid place now).run.EndsWithin 5 := by
  unfold placeBid
  cases place.validate with
  | error failure => exact trivial
  | ok =>
      refine ⟨by decide, fun begun => ?_⟩
      cases begun with
      | error failure => exact trivial
      | ok transaction =>
          refine ⟨by decide, fun marked => ?_⟩
          cases marked with
          | error failure => exact ⟨by decide, fun closed => by cases closed <;> exact trivial⟩
          | ok =>
              refine ⟨by decide, fun staged => ?_⟩
              cases staged with
              | error failure =>
                  exact ⟨by decide, fun closed => by cases closed <;> exact trivial⟩
              | ok bid =>
                  refine ⟨by decide, fun committed => ?_⟩
                  cases committed with
                  | error failure => exact trivial
                  | ok => exact ⟨by decide, fun _ => trivial⟩

end Command

/-! ## Who comes first -/

namespace Interleaving.Orderly

variable {place : PlaceBid} {now : Instant}
  {interleaving : Interleaving (Except Failure Bid)}

/-- The bid that a placement has settled is on the item that it was placed on. -/
theorem itemId_of_settled (horderly : interleaving.Orderly place now) {bid : Bid}
    (hsettled : interleaving.course.settled? = some bid) : bid.itemId = place.itemId :=
  (horderly.sound.records (Course.staged?_of_settled hsettled)).itemId

/-- A placement on an item that is gone has settled nothing, and there are no bids on the item. -/
theorem unsettled_of_gone (horderly : interleaving.Orderly place now)
    (hrecorded : ∀ bid, interleaving.course.settled? = some bid →
      bid ∈ interleaving.service.market.ledger)
    (hgone : interleaving.service.market.ItemGone place.itemId) :
    interleaving.course.settled? = none ∧
      (∀ bid ∈ interleaving.service.market.ledger, bid.itemId ≠ place.itemId) ∧
      ∀ placed, interleaving.course.result? ≠ some (.ok placed) := by
  have hledger : ∀ bid ∈ interleaving.service.market.ledger, bid.itemId ≠ place.itemId := by
    intro bid hmem hitem
    have hpresent := horderly.consistent.linked.item_of_bid bid hmem
    obtain ⟨item, hfound⟩ := Table.contains_iff.mp hpresent
    rw [hitem] at hfound
    cases hgone.2.symm.trans hfound
  have hnone : interleaving.course.settled? = none := by
    cases hsettled : interleaving.course.settled? with
    | none => rfl
    | some bid =>
        exact absurd (horderly.itemId_of_settled hsettled) (hledger bid (hrecorded bid hsettled))
  refine ⟨hnone, hledger, fun placed hresult => ?_⟩
  -- a placement that has ended well has settled its bid
  rw [horderly.sound.settled?_eq, (horderly.sound.concludes hresult).announced] at hnone
  cases hnone

/-- An undisturbed placement that has not ended well was overtaken. -/
theorem overtaken (horderly : interleaving.Orderly place now)
    (hkeeps : interleaving.course.Keeps Settlement.overtaken
      (fun phase result => phase → ∀ failure, result = .error failure → failure.Overtaken) True)
    (hundisturbed : ∀ act ∈ interleaving.course.acts, act.Undisturbed) {failure : Failure}
    (hresult : interleaving.course.result? = some (.error failure)) : failure.Overtaken := by
  refine hkeeps.result hresult (Settlement.reached_overtaken fun act hmem cause hfails => ?_)
    failure rfl
  obtain ⟨phase, hplaces⟩ := horderly.sound.permitted act hmem
  exact hplaces.overtaken (hundisturbed act hmem) hfails

/-- Once a bid is settled, the auction of its item stays, and so does the venue of the auction. -/
theorem deletion_barred (horderly : interleaving.Orderly place now) {bid : Bid}
    (hsettled : interleaving.course.settled? = some bid)
    (hrecorded : bid ∈ interleaving.service.market.ledger) {item : Item}
    (hitem : interleaving.service.market.items.find? place.itemId = some item)
    (later : List Turn) :
    let market := (interleaving.play later).service.market
    market.deleteAuction item.auctionId =
      (.error (.conflict (.auctionHasBids item.auctionId)), market) ∧
    ∀ auction, interleaving.service.market.auctions.find? item.auctionId = some auction →
      ∀ instant, ∃ failure,
        market.softDeleteVenue auction.venueId instant = (.error failure, market) := by
  intro market
  have hconsistent : market.Consistent := (horderly.play later).consistent
  have hbid : interleaving.service.market.BidOnAuction item.auctionId :=
    ⟨bid, hrecorded, item, horderly.itemId_of_settled hsettled ▸ hitem, rfl⟩
  refine ⟨hconsistent.deleteAuction_barred ?_, fun auction hauction instant =>
    hconsistent.softDeleteVenue_barred ?_ instant⟩
  · exact play_stable (Market.BidOnAuction.stable _) hbid horderly.consistent later
  · exact play_stable (Market.BidOnVenue.stable _) ⟨_, auction, hauction, rfl, hbid⟩
      horderly.consistent later

/-- An item goes with its auction. -/
theorem gone_of_deleted (horderly : interleaving.Orderly place now) {item : Item}
    (hitem : interleaving.service.market.items.find? place.itemId = some item)
    (hdeleted : (interleaving.service.market.deleteAuction item.auctionId).1 = .ok ()) :
    (interleaving.take (.other (.store (.deleteAuction item.auctionId))
      .answered)).service.market.ItemGone place.itemId := by
  have hmarket : (interleaving.take (.other (.store (.deleteAuction item.auctionId))
      .answered)).service.market =
      (interleaving.service.market.deleteAuction item.auctionId).2 := by
    rw [Interleaving.take, if_neg (by rintro ⟨transaction, -, hnamed⟩; cases hnamed)]
    rfl
  rw [hmarket]
  exact horderly.consistent.itemGone_of_deleted hitem hdeleted

end Interleaving.Orderly

/-- In every state of the market, an auction can be deleted just when it is there and no bid is on
an item of it, and a venue given up just when it has not been given up and no bid is on an item of
one of its auctions; then just that is removed or marked, and otherwise the deletion fails and
nothing changes. So when a bid is placed on an item among others: once it is committed, every later
deletion of the item's auction is a conflict, and its venue cannot be given up; once the auction is
deleted, the placement has recorded nothing and never ends well, and undisturbed it has ended, after
no more than five calls, as not found or in conflict. -/
theorem Command.settlement_and_deletion_exclude_each_other :
    (∀ steps id now, let market := Market.initial.takeAll steps
      market.GuardsAuction id ∧ market.GuardsVenue id now) ∧
    ∀ place now before later item,
      let here := (Interleaving.start (Command.placeBid place now).run).play before
      here.service.market.items.find? place.itemId = some item →
      (∀ bid, here.course.settled? = some bid →
        let market := (here.play later).service.market
        market.deleteAuction item.auctionId =
          (.error (.conflict (.auctionHasBids item.auctionId)), market) ∧
        ∀ auction, here.service.market.auctions.find? item.auctionId = some auction →
          ∀ instant, ∃ failure,
            market.softDeleteVenue auction.venueId instant = (.error failure, market)) ∧
      ((here.service.market.deleteAuction item.auctionId).1 = .ok () →
        let deletion : Turn := .other (.store (.deleteAuction item.auctionId)) .answered
        let there := (here.take deletion).play later
        there.course.settled? = none ∧
        (∀ bid ∈ there.service.market.ledger, bid.itemId ≠ place.itemId) ∧
        (∀ placed, there.course.result? ≠ some (.ok placed)) ∧
        (place.validate = .ok () → (∀ act ∈ there.course.acts, act.Undisturbed) →
          5 ≤ (before ++ later).countP Turn.isOwn →
          ∃ failure, there.course.result? = some (.error failure) ∧
            (failure.kind = .notFound ∨ failure.kind = .conflict))) := by
  refine ⟨fun steps id now => ?_, ?_⟩
  · have hconsistent := Market.Consistent.initial.takeAll steps
    exact ⟨Market.guardsAuction _ id, hconsistent.filed.guardsVenue id now⟩
  intro place now before later item here hitem
  have hstart := Interleaving.Orderly.start place now
  have horderly : here.Orderly place now := hstart.play before
  refine ⟨fun bid hsettled => ?_, ?_⟩
  · exact horderly.deletion_barred hsettled (hstart.settled_recorded nofun before bid hsettled)
      hitem later
  · intro hdeleted deletion there
    have hthere : there = (Interleaving.start (Command.placeBid place now).run).play
        (before ++ deletion :: later) := by
      rw [Interleaving.play_append]
      rfl
    have horderly' : there.Orderly place now := (horderly.take deletion).play later
    have hgone : there.service.market.ItemGone place.itemId :=
      Interleaving.play_stable (Market.ItemGone.stable _)
        (horderly.gone_of_deleted hitem hdeleted) (horderly.take deletion).consistent later
    have hrecorded : ∀ bid, there.course.settled? = some bid →
        bid ∈ there.service.market.ledger := hthere ▸ hstart.settled_recorded nofun _
    obtain ⟨hnone, hledger, hfails⟩ := horderly'.unsettled_of_gone hrecorded hgone
    refine ⟨hnone, hledger, hfails, fun hvalid hundisturbed hturns => ?_⟩
    -- with five turns the placement has ended, and not well, so it has failed
    have hbound := Interleaving.endsWithin_play (.start (Command.placeBid place now).run)
      (Command.placeBid_endsWithin place now) (before ++ deletion :: later)
    have hkeeps := Interleaving.keeps_play (.start (Command.placeBid place now).run)
      (Command.placeBid_overtaken hvalid now) (before ++ deletion :: later)
    have hnoTurn : 5 - (before ++ deletion :: later).countP Turn.isOwn = 0 := by
      simp only [List.countP_append, List.countP_cons] at hturns ⊢
      omega
    rw [← hthere, hnoTurn] at hbound
    rw [← hthere] at hkeeps
    obtain ⟨result, hresult⟩ := Course.ended_of_endsWithin hbound
    cases result with
    | ok placed => exact absurd hresult (hfails placed)
    | error failure => exact ⟨failure, hresult, horderly'.overtaken hkeeps hundisturbed hresult⟩

-- The auction is deleted when the bid is staged and not yet committed.
example (now : Instant) (date : Date) :
    let here := (Interleaving.start (Command.placeBid ⟨4, 5, 100⟩ now).run).play [
      .other (.store (.createVenue ⟨"", "", ""⟩ now)) .answered,
      .other (.store (.createAuction ⟨1, date, none, none, none⟩ now)) .answered,
      .other (.store (.createFisherman "" now)) .answered,
      .other (.store (.createItem ⟨2, 3, "", 1, "", none, 1⟩ now)) .answered,
      .other (.store (.createBuyer "" now)) .answered,
      .own .answered, .own .answered, .own .answered,
      .other (.store (.deleteAuction 2)) .answered, .own .answered]
    here.course.result? = some (.error (.conflict (.itemDeleted 4))) := by
  cbv

end FishMarket
