import FishMarket.Proofs.Market.References

/-! # Consistency of the market

In every state that a market can get into, whatever is asked of it and in whatever order, ids are
unique, references lead to rows that are there, and an id that was given up is never used again.
-/

namespace FishMarket.Market

variable {market after : Market} {named : Option TransactionId}

/-- What holds of a market at all times. -/
structure Consistent (market : Market) : Prop where
  filed : market.Filed
  numbered : market.Numbered
  handled : market.Handled
  linked : market.Linked

namespace Consistent

theorem initial : Market.initial.Consistent where
  filed := ⟨.empty, .empty, .empty, .empty, .empty⟩
  numbered := ⟨by decide, by decide, by decide⟩
  handled := by
    intro transaction writes hfound
    simp [Market.initial] at hfound
  linked := by
    constructor <;> simp [Market.initial, stagedBids, Table.values, Table.empty, Table.find?]

theorem change (hconsistent : market.Consistent) (hchange : Change market named after) :
    after.Consistent where
  filed := hconsistent.filed.change hchange
  numbered := hconsistent.numbered.renumbered
    (hchange.renumbered hconsistent.filed hconsistent.handled hconsistent.numbered)
  handled := hconsistent.handled.change hchange
  linked := hconsistent.linked.change hconsistent.handled hchange

theorem committed (hconsistent : market.Consistent) {transaction : TransactionId}
    (hready : market.Committable transaction) : (market.committed transaction).Consistent where
  filed := hconsistent.filed.committed transaction
  numbered := hconsistent.numbered.renumbered (market.renumbered_committed transaction)
  handled := hconsistent.handled.committed transaction
  linked := hconsistent.linked.committed hready

theorem take (hconsistent : market.Consistent) (step : Step) : (market.take step).Consistent := by
  rcases market.take_cases step with ⟨named, hchange⟩ | ⟨transaction, hready, heq⟩
  · exact hconsistent.change hchange
  · exact heq ▸ hconsistent.committed hready

theorem takeAll (hconsistent : market.Consistent) (steps : List Step) :
    (market.takeAll steps).Consistent := by
  induction steps generalizing market with
  | nil => exact hconsistent
  | cons step rest ih => exact ih (hconsistent.take step)

theorem renumbered_take (hconsistent : market.Consistent) (step : Step) :
    market.Renumbered (market.take step) := by
  rcases market.take_cases step with ⟨named, hchange⟩ | ⟨transaction, hready, heq⟩
  · exact hchange.renumbered hconsistent.filed hconsistent.handled hconsistent.numbered
  · exact heq ▸ market.renumbered_committed transaction

/-- No two bids of a ledger have the same id. -/
theorem ledger_nodup (hconsistent : market.Consistent) : (market.ledger.map Bid.id).Nodup := by
  have hdistinct := hconsistent.numbered.distinct
  unfold Market.ids Market.entityIds at hdistinct
  exact (List.nodup_append.mp (List.nodup_append.mp hdistinct).1).2.1

end Consistent

/-! ## Ids that are given up -/

/-- Whether an id was given out and no staged bid has it. -/
def Unstaged (market : Market) (id : Int) : Prop :=
  id ≤ market.lastId ∧ id ∉ market.stagedBids.map Bid.id

/-- Whether an id was given out and nothing has it any more. -/
def Retired (market : Market) (id : Int) : Prop :=
  id ≤ market.lastId ∧ id ∉ market.ids

/-- An entity does not share its id with a staged bid. -/
theorem Consistent.unstaged (hconsistent : market.Consistent) {id : Int}
    (hdenotes : market.Denotes id) : market.Unstaged id := by
  have hmem : id ∈ market.ids := List.mem_append_left _ hdenotes
  refine ⟨(hconsistent.numbered.within id hmem).2, ?_⟩
  intro hstaged
  exact (List.nodup_append.mp hconsistent.numbered.distinct).2.2 id hdenotes id hstaged rfl

theorem Change.mem_stagedBids (hhandled : market.Handled) (hchange : Change market named after)
    {bid : Bid} (hmem : bid ∈ after.stagedBids) :
    bid ∈ market.stagedBids ∨ bid.id = market.nextId := by
  cases hchange with
  | nothing | idTaken | refusalSet | venueAdded | venueGivenUp | auctionAdded | auctionWritten
  | auctionDeleted | itemAdded | itemWritten | buyerAdded | fishermanAdded => exact .inl hmem
  | begun => exact .inl ((market.stagedBids_begin hhandled.find?_next).mem_iff.mp hmem)
  | statusStaged =>
      exact (mem_stagedBids_stage hmem).elim (fun hnone => by cases hnone) .inl
  | bidStaged transaction staged hid =>
      rcases mem_stagedBids_stage hmem with hnew | hold
      · exact .inr (Option.some.inj hnew ▸ hid)
      · exact .inl hold
  | closed transaction => exact .inl ((market.stagedBids_close_subperm transaction).subset hmem)

/-- Only a new bid is staged, so the id of anything else stays unstaged. -/
theorem Unstaged.take {id : Int} (hunstaged : market.Unstaged id)
    (hconsistent : market.Consistent) (step : Step) : (market.take step).Unstaged id := by
  obtain ⟨hle, hnot⟩ := hunstaged
  refine ⟨Int.le_trans hle (hconsistent.renumbered_take step).lastId_le, ?_⟩
  intro hmem
  obtain ⟨bid, hbid, rfl⟩ := List.mem_map.mp hmem
  -- a commit stages nothing, and any other step at most the bid with the next id
  have hold : bid ∈ market.stagedBids ∨ bid.id = market.nextId := by
    rcases market.take_cases step with ⟨named, hchange⟩ | ⟨transaction, -, heq⟩
    · exact hchange.mem_stagedBids hconsistent.handled hbid
    · rw [heq, committed_eq] at hbid
      exact .inl ((market.stagedBids_close_subperm transaction).subset hbid)
  rcases hold with hold | hnew
  · exact hnot (List.mem_map_of_mem hold)
  · have hnext : market.nextId = market.lastId + 1 := rfl
    omega

/-- Only the next id comes into use, so one that was given up does not. -/
theorem Retired.take {id : Int} (hretired : market.Retired id) (hconsistent : market.Consistent)
    (step : Step) : (market.take step).Retired id := by
  obtain ⟨hle, hnot⟩ := hretired
  have hids := hconsistent.renumbered_take step
  refine ⟨Int.le_trans hle hids.lastId_le, ?_⟩
  intro hmem
  rcases hids.mem_ids hmem with hold | ⟨hnew, -⟩
  · exact hnot hold
  · have hnext : market.nextId = market.lastId + 1 := rfl
    omega

theorem Unstaged.takeAll {id : Int} (hunstaged : market.Unstaged id)
    (hconsistent : market.Consistent) (steps : List Step) :
    (market.takeAll steps).Unstaged id := by
  induction steps generalizing market with
  | nil => exact hunstaged
  | cons step rest ih => exact ih (hunstaged.take hconsistent step) (hconsistent.take step)

theorem Retired.takeAll {id : Int} (hretired : market.Retired id)
    (hconsistent : market.Consistent) (steps : List Step) :
    (market.takeAll steps).Retired id := by
  induction steps generalizing market with
  | nil => exact hretired
  | cons step rest ih => exact ih (hretired.take hconsistent step) (hconsistent.take step)

/-- An entity whose id is in use no more has left it for good. -/
theorem Unstaged.retired {id : Int} (hunstaged : market.Unstaged id)
    (hgone : ¬ market.Denotes id) : market.Retired id := by
  refine ⟨hunstaged.1, ?_⟩
  intro hmem
  exact (List.mem_append.mp hmem).elim hgone hunstaged.2

/-! ## Reachable states -/

/-- The market after any steps from the start: every row stands under its id; the ids of venues,
auctions, items, buyers, fishermen, recorded bids and staged bids are positive, were given out and
differ from each other; and every reference, of a bid up to its venue, leads to a row. If an id
stops denoting an entity, nothing that happens afterwards lets it denote one again. -/
theorem reachable_identity_and_references (steps : List Step) :
    let market := initial.takeAll steps
    (market.Filed ∧ market.ids.Nodup ∧ (∀ id ∈ market.ids, 0 < id ∧ id ≤ market.lastId) ∧
      market.Linked ∧
      ∀ bid ∈ market.ledger, ∃ item auction venue buyer,
        market.items.find? bid.itemId = some item ∧
        market.auctions.find? item.auctionId = some auction ∧
        market.venues.find? auction.venueId = some venue ∧
        market.buyers.find? bid.buyerId = some buyer) ∧
    ∀ (later latest : List Step) (id : Int), market.Denotes id →
      ¬ (market.takeAll later).Denotes id →
      ¬ ((market.takeAll later).takeAll latest).Denotes id := by
  intro market
  have hconsistent : market.Consistent := Consistent.initial.takeAll steps
  have hlinked := hconsistent.linked
  refine ⟨⟨hconsistent.filed, hconsistent.numbered.distinct, hconsistent.numbered.within, hlinked,
    ?_⟩, ?_⟩
  · intro bid hbid
    obtain ⟨item, hitem⟩ := Table.contains_iff.mp (hlinked.item_of_bid bid hbid)
    obtain ⟨auction, hauction⟩ := Table.contains_iff.mp (hlinked.auction_of_item _ item hitem)
    obtain ⟨venue, hvenue⟩ := Table.contains_iff.mp (hlinked.venue_of_auction _ auction hauction)
    obtain ⟨buyer, hbuyer⟩ := Table.contains_iff.mp (hlinked.buyer_of_bid bid hbid)
    exact ⟨item, auction, venue, buyer, hitem, hauction, hvenue, hbuyer⟩
  · intro later latest id hdenotes hgone hagain
    have hunstaged := (hconsistent.unstaged hdenotes).takeAll hconsistent later
    have hretired := (hunstaged.retired hgone).takeAll (hconsistent.takeAll later) latest
    exact hretired.2 (List.mem_append_left _ hagain)

end FishMarket.Market
