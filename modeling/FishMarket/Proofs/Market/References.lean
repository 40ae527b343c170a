import FishMarket.Proofs.Market.Identity

/-! # References of the market

Auctions refer to their venue, items to their auction and their fisherman, bids to their item and
their buyer. Whatever is referred to is on record: venues and parties never leave, an auction takes
its items along, and nothing with a bid on it can be deleted. A staged bid may lose its item, which
is why a commit looks for it once more.
-/

namespace FishMarket.Market

variable {market after : Market} {named : Option TransactionId}

/-- Whether everything that is referred to is on record. -/
structure Linked (market : Market) : Prop where
  venue_of_auction : ∀ id auction, market.auctions.find? id = some auction →
    market.venues.contains auction.venueId = true
  auction_of_item : ∀ id item, market.items.find? id = some item →
    market.auctions.contains item.auctionId = true
  fisherman_of_item : ∀ id item, market.items.find? id = some item →
    market.fishermen.contains item.fishermanId = true
  item_of_bid : ∀ bid ∈ market.ledger, market.items.contains bid.itemId = true
  buyer_of_bid : ∀ bid ∈ market.ledger, market.buyers.contains bid.buyerId = true
  buyer_of_staged : ∀ bid ∈ market.stagedBids, market.buyers.contains bid.buyerId = true

/-- Without bids on an auction, no bid is on an item of it. -/
theorem auctionHasBids_eq_false_iff {auction : Int} :
    market.auctionHasBids auction = false ↔
      ∀ bid ∈ market.ledger, ∀ item, market.items.find? bid.itemId = some item →
        item.auctionId ≠ auction := by
  simp only [auctionHasBids, List.any_eq_false, isOnAuction]
  constructor
  · intro hnone bid hbid item hitem
    simpa [hitem] using hnone bid hbid
  · intro hnone bid hbid
    cases hitem : market.items.find? bid.itemId with
    | none => simp
    | some item => simpa using hnone bid hbid item hitem

/-- A bid that is staged was staged before or is the one of the last write. -/
theorem mem_stagedBids_stage {transaction : TransactionId} {write : StagedWrite} {bid : Bid}
    (hmem : bid ∈ (market.stage transaction write).stagedBids) :
    write.bid? = some bid ∨ bid ∈ market.stagedBids := by
  have hfound := (market.stagedBids_stage_subperm transaction write).subset hmem
  simpa using hfound

namespace Linked

/-- Where only staged bids change, their buyers have to be on record. -/
theorem of_staged (hlinked : market.Linked) (hentities : after.entities = market.entities)
    (hstaged : ∀ bid ∈ after.stagedBids, bid ∈ market.stagedBids ∨
      market.buyers.contains bid.buyerId = true) : after.Linked := by
  obtain ⟨hvenues, hauctions, hitems, hledger, hbuyers, hfishermen⟩ :=
    Entities.mk.inj hentities
  constructor
  · rw [hvenues, hauctions]
    exact hlinked.venue_of_auction
  · rw [hauctions, hitems]
    exact hlinked.auction_of_item
  · rw [hfishermen, hitems]
    exact hlinked.fisherman_of_item
  · rw [hitems, hledger]
    exact hlinked.item_of_bid
  · rw [hbuyers, hledger]
    exact hlinked.buyer_of_bid
  · rw [hbuyers]
    exact fun bid hbid => (hstaged bid hbid).elim (hlinked.buyer_of_staged bid) id

/-- Every change keeps on record what is referred to. -/
theorem change (hhandled : market.Handled) (hlinked : market.Linked)
    (hchange : Change market named after) : after.Linked := by
  cases hchange with
  | nothing | refusalSet | idTaken => exact { hlinked with }
  | venueAdded venue =>
      exact { hlinked with
        venue_of_auction := fun id auction hauction =>
          Table.contains_insert (hlinked.venue_of_auction id auction hauction) }
  | venueGivenUp id now =>
      refine { hlinked with venue_of_auction := fun other auction hauction => ?_ }
      rw [Table.contains_modify]
      exact hlinked.venue_of_auction other auction hauction
  | auctionAdded auction hid hvenue =>
      refine { hlinked with
        venue_of_auction := fun id row hrow => ?_
        auction_of_item := fun id item hitem =>
          Table.contains_insert (hlinked.auction_of_item id item hitem) }
      rw [Table.find?_insert] at hrow
      split at hrow
      next => exact Option.some.inj hrow ▸ hvenue
      next => exact hlinked.venue_of_auction id row hrow
  | auctionWritten id auction status now hfound =>
      refine { hlinked with
        venue_of_auction := fun other row hrow => ?_
        auction_of_item := fun other item hitem => ?_ }
      · rw [Table.find?_modify] at hrow
        split at hrow
        next hsame =>
          rw [hsame, hfound] at hrow
          obtain rfl := Option.some.inj hrow
          exact hlinked.venue_of_auction id auction hfound
        next => exact hlinked.venue_of_auction other row hrow
      · rw [Table.contains_modify]
        exact hlinked.auction_of_item other item hitem
  | auctionDeleted id hfound hbids =>
      rw [auctionHasBids_eq_false_iff] at hbids
      refine { hlinked with
        venue_of_auction := fun other auction hauction => ?_
        auction_of_item := fun other item hitem => ?_
        fisherman_of_item := fun other item hitem => ?_
        item_of_bid := fun bid hbid => ?_ }
      · rw [Table.find?_erase] at hauction
        split at hauction
        next => exact absurd hauction (by simp)
        next => exact hlinked.venue_of_auction other auction hauction
      · rw [Table.find?_filter] at hitem
        obtain ⟨hitem, hother⟩ := Option.filter_eq_some_iff.mp hitem
        rw [Table.contains, Table.find?_erase, if_neg (by simpa using hother)]
        exact hlinked.auction_of_item other item hitem
      · rw [Table.find?_filter] at hitem
        exact hlinked.fisherman_of_item other item (Option.filter_eq_some_iff.mp hitem).1
      · -- the item of a bid is not on the auction, so it stays
        obtain ⟨item, hitem⟩ := Table.contains_iff.mp (hlinked.item_of_bid bid hbid)
        have hother := hbids bid hbid item hitem
        simp [Table.contains, Table.find?_filter, hitem, hother]
  | itemAdded item hid hauction hfisherman =>
      refine { hlinked with
        auction_of_item := fun id row hrow => ?_
        fisherman_of_item := fun id row hrow => ?_
        item_of_bid := fun bid hbid => Table.contains_insert (hlinked.item_of_bid bid hbid) }
      · rw [Table.find?_insert] at hrow
        split at hrow
        next => exact Option.some.inj hrow ▸ hauction
        next => exact hlinked.auction_of_item id row hrow
      · rw [Table.find?_insert] at hrow
        split at hrow
        next => exact Option.some.inj hrow ▸ hfisherman
        next => exact hlinked.fisherman_of_item id row hrow
  | itemWritten id item status hfound =>
      have hrows : ∀ other row, (market.items.modify id fun _ =>
          { item with status := status }).find? other = some row →
          ∃ before, market.items.find? other = some before ∧
            row.auctionId = before.auctionId ∧ row.fishermanId = before.fishermanId := by
        intro other row hrow
        rw [Table.find?_modify] at hrow
        split at hrow
        next hsame =>
          rw [hsame, hfound] at hrow
          obtain rfl := Option.some.inj hrow
          exact ⟨item, hsame ▸ hfound, rfl, rfl⟩
        next => exact ⟨row, hrow, rfl, rfl⟩
      refine { hlinked with
        auction_of_item := fun other row hrow => ?_
        fisherman_of_item := fun other row hrow => ?_
        item_of_bid := fun bid hbid => ?_ }
      · obtain ⟨before, hbefore, hauction, -⟩ := hrows other row hrow
        exact hauction ▸ hlinked.auction_of_item other before hbefore
      · obtain ⟨before, hbefore, -, hfisherman⟩ := hrows other row hrow
        exact hfisherman ▸ hlinked.fisherman_of_item other before hbefore
      · rw [Table.contains_modify]
        exact hlinked.item_of_bid bid hbid
  | buyerAdded buyer =>
      exact { hlinked with
        buyer_of_bid := fun bid hbid => Table.contains_insert (hlinked.buyer_of_bid bid hbid)
        buyer_of_staged := fun bid hbid =>
          Table.contains_insert (hlinked.buyer_of_staged bid hbid) }
  | fishermanAdded fisherman =>
      exact { hlinked with
        fisherman_of_item := fun id item hitem =>
          Table.contains_insert (hlinked.fisherman_of_item id item hitem) }
  | begun =>
      refine hlinked.of_staged (by rfl) ?_
      intro bid hbid
      exact .inl ((market.stagedBids_begin hhandled.find?_next).mem_iff.mp hbid)
  | statusStaged transaction id status =>
      refine hlinked.of_staged (by rfl) ?_
      intro bid hbid
      exact (mem_stagedBids_stage hbid).elim (fun hnone => by cases hnone) .inl
  | bidStaged transaction staged hid hitem hbuyer =>
      refine hlinked.of_staged (by rfl) ?_
      intro bid hbid
      rcases mem_stagedBids_stage hbid with hnew | hold
      · exact .inr (Option.some.inj hnew ▸ hbuyer)
      · exact .inl hold
  | closed transaction =>
      refine hlinked.of_staged (by rfl) ?_
      intro bid hbid
      exact .inl ((market.stagedBids_close_subperm transaction).subset hbid)

/-- A commit looks for the items of its bids, and their buyers have stayed. -/
theorem committed {transaction : TransactionId} (hlinked : market.Linked)
    (hready : market.Committable transaction) : (market.committed transaction).Linked := by
  have hperm := market.stagedBids_perm transaction
  rw [committed_eq]
  refine { hlinked with
    auction_of_item := fun id item hitem => ?_
    fisherman_of_item := fun id item hitem => ?_
    item_of_bid := fun bid hbid => ?_
    buyer_of_bid := fun bid hbid => ?_
    buyer_of_staged := fun bid hbid => ?_ }
  · rw [find?_writeItems] at hitem
    obtain ⟨before, hbefore, rfl⟩ := Option.map_eq_some_iff.mp hitem
    exact hlinked.auction_of_item id before hbefore
  · rw [find?_writeItems] at hitem
    obtain ⟨before, hbefore, rfl⟩ := Option.map_eq_some_iff.mp hitem
    exact hlinked.fisherman_of_item id before hbefore
  · rw [contains_writeItems]
    -- the commit has looked for the items of the new bids
    rcases List.mem_append.mp hbid with hold | hnew
    · exact hlinked.item_of_bid bid hold
    · obtain ⟨write, hwrite, hwritten⟩ := List.mem_filterMap.mp hnew
      have hpresent := hready.contains hwrite
      cases write with
      | itemStatus id status => cases hwritten
      | bid staged => exact Option.some.inj hwritten ▸ hpresent
  · rcases List.mem_append.mp hbid with hold | hnew
    · exact hlinked.buyer_of_bid bid hold
    · exact hlinked.buyer_of_staged bid (hperm.mem_iff.mpr (List.mem_append_left _ hnew))
  · exact hlinked.buyer_of_staged bid (hperm.mem_iff.mpr (List.mem_append_right _ hbid))

end Linked

end FishMarket.Market
