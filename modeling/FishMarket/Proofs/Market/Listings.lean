import FishMarket.Proofs.Bid
import FishMarket.Proofs.Market.Consistency

/-! # What listings show

The list of the bids on an item, the highest bid on it and its row in the catalogue of its auction
are three ways to look at the same bids, each in an order of its own. They agree, because which bid
is the highest does not depend on the order.
-/

namespace FishMarket.Market

variable {market : Market} {id auction : Int}

/-! ## Bids -/

theorem listBidsForItem_perm (market : Market) (id : Int) :
    (market.listBidsForItem id).Perm (market.bidsOn id) :=
  List.mergeSort_perm _ _

theorem mem_listBidsForItem {bid : Bid} :
    bid ∈ market.listBidsForItem id ↔ bid ∈ market.ledger ∧ bid.itemId = id := by
  rw [(market.listBidsForItem_perm id).mem_iff]
  simp [bidsOn]

theorem listBidsForItem_eq_nil_iff :
    market.listBidsForItem id = [] ↔ ∀ bid ∈ market.ledger, bid.itemId ≠ id := by
  simp [List.eq_nil_iff_forall_not_mem, mem_listBidsForItem]

theorem Consistent.nodup_bidsOn (hconsistent : market.Consistent) (id : Int) :
    ((market.bidsOn id).map Bid.id).Nodup :=
  hconsistent.ledger_nodup.sublist (List.filter_sublist.map Bid.id)

/-- The highest bid may as well be picked from the bids as they are listed. -/
theorem Consistent.pickHighest_listBidsForItem (hconsistent : market.Consistent) (id : Int) :
    Bid.pickHighest (market.listBidsForItem id) = market.highestBid id :=
  Bid.pickHighest_perm (hconsistent.nodup_bidsOn id) (market.listBidsForItem_perm id).symm

/-! ## Rows of a catalogue -/

theorem mem_listItemListings_iff {listing : Listing} :
    listing ∈ market.listItemListings auction ↔ ∃ item ∈ market.items.values,
      item.auctionId = auction ∧ Listing.ofItem item (market.highestBid item.id) = listing := by
  simp [listItemListings, itemsOf, highestBid, and_assoc]

theorem mem_listItemListings {item : Item} (hitem : market.items.find? id = some item) :
    ∃ listing ∈ market.listItemListings item.auctionId, listing.item = item :=
  ⟨_, mem_listItemListings_iff.mpr ⟨item, Table.mem_values_iff.mpr ⟨id, hitem⟩, rfl, rfl⟩, rfl⟩

/-- In every state of the market, the highest bid on an item, the list of its bids and its row in a
catalogue agree. There is no highest bid if nobody has bid on the item; otherwise it is that of the
bid with the highest price in the list, and of several at this price the one with the smallest id.
The catalogue of its auction has a row for the item, and shows the same price and the same buyer.
All this comes from how the highest of any bids with different ids is picked, in whatever order they
stand. -/
theorem views_of_highest_bid_agree :
    (∀ steps id, let market := initial.takeAll steps
      let bids := market.listBidsForItem id
      let highest := market.highestBid id
      (highest = none ↔ bids = []) ∧ (bids = [] ↔ ∀ bid ∈ market.ledger, bid.itemId ≠ id) ∧
      (∀ price buyer, highest = some ⟨price, buyer⟩ ↔
        ∃ bid : Bid, bid.Wins bids ∧ bid.price = price ∧ bid.buyerId = buyer) ∧
      (∀ item, market.items.find? id = some item →
        ∃ listing ∈ market.listItemListings item.auctionId, listing.item = item) ∧
      ∀ auction, ∀ listing ∈ market.listItemListings auction, listing.item.id = id →
        listing.highestBid? = highest.map HighestBid.price ∧
        listing.highestBidderId? = highest.map HighestBid.buyerId) ∧
    ∀ bids : List Bid, (bids.map Bid.id).Nodup →
      (Bid.pickHighest bids = none ↔ bids = []) ∧
      (∀ price buyer, Bid.pickHighest bids = some ⟨price, buyer⟩ ↔
        ∃ bid : Bid, bid.Wins bids ∧ bid.price = price ∧ bid.buyerId = buyer) ∧
      ∀ others, bids.Perm others → Bid.pickHighest others = Bid.pickHighest bids := by
  have hpicked (bids : List Bid) (hids : (bids.map Bid.id).Nodup) (price buyer : Int) :
      Bid.pickHighest bids = some ⟨price, buyer⟩ ↔
        ∃ bid : Bid, bid.Wins bids ∧ bid.price = price ∧ bid.buyerId = buyer := by
    simp only [Bid.pickHighest_eq_some_iff hids, Bid.toHighest, HighestBid.mk.injEq]
  refine ⟨fun steps id => ?_, fun bids hids => ?_⟩
  · intro market bids highest
    have hconsistent : market.Consistent := Consistent.initial.takeAll steps
    have hhighest : Bid.pickHighest bids = highest := hconsistent.pickHighest_listBidsForItem id
    have hids : (bids.map Bid.id).Nodup := by
      rw [((market.listBidsForItem_perm id).map Bid.id).nodup_iff]
      exact hconsistent.nodup_bidsOn id
    refine ⟨?_, listBidsForItem_eq_nil_iff, ?_, fun item => mem_listItemListings, ?_⟩
    · rw [← hhighest]
      exact Bid.pickHighest_eq_none_iff
    · rw [← hhighest]
      exact hpicked bids hids
    · intro auction listing hmem hid
      obtain ⟨item, -, -, rfl⟩ := mem_listItemListings_iff.mp hmem
      subst hid
      exact ⟨rfl, rfl⟩
  · exact ⟨Bid.pickHighest_eq_none_iff, hpicked bids hids, fun others => Bid.pickHighest_perm hids⟩

end FishMarket.Market
