import FishMarket.Proofs.Market.Stability

/-! # Deletions

An auction that is deleted takes its items along, and a venue that is given up keeps its row. Both
look for bids first: from a bid to its item, from there to the auction, and from there to the venue.
A bid that was recorded bars these deletions for good.
-/

namespace FishMarket.Market

open Calendar

variable {market after : Market} {id : Int}

/-! ## What bars a deletion -/

/-- Whether a bid in the ledger is on an item of an auction. -/
def BidOnAuction (auction : Int) (market : Market) : Prop :=
  ∃ bid ∈ market.ledger, ∃ item, market.items.find? bid.itemId = some item ∧
    item.auctionId = auction

/-- Whether a bid in the ledger is on an item of an auction of a venue. -/
def BidOnVenue (venue : Int) (market : Market) : Prop :=
  ∃ id auction, market.auctions.find? id = some auction ∧ auction.venueId = venue ∧
    market.BidOnAuction id

theorem auctionHasBids_eq_true_iff {auction : Int} :
    market.auctionHasBids auction = true ↔ market.BidOnAuction auction := by
  rw [← Bool.not_eq_false, auctionHasBids_eq_false_iff, BidOnAuction]
  push Not
  exact Iff.rfl

/-- The auctions of a venue are looked at one by one, each under the id in its row. -/
theorem Filed.venueHasBids_eq_true_iff (hfiled : market.Filed) {venue : Int} :
    market.venueHasBids venue = true ↔ market.BidOnVenue venue := by
  simp only [venueHasBids, List.any_eq_true, List.mem_filter, Table.mem_values_iff,
    decide_eq_true_eq, auctionHasBids_eq_true_iff]
  constructor
  · rintro ⟨auction, ⟨⟨id, hfound⟩, hvenue⟩, hbid⟩
    exact ⟨id, auction, hfound, hvenue, hfiled.auctions id auction hfound ▸ hbid⟩
  · rintro ⟨id, auction, hfound, hvenue, hbid⟩
    exact ⟨auction, ⟨⟨id, hfound⟩, hvenue⟩, (hfiled.auctions id auction hfound).symm ▸ hbid⟩

/-- A bid on an auction bars its deletion, so the auction and the item of the bid stay. -/
theorem BidOnAuction.stable (auction : Int) : Stable (BidOnAuction auction) where
  change := by
    rintro market after named ⟨bid, hbid, item, hitem, hauction⟩ hconsistent hchange
    refine ⟨bid, hchange.ledger_eq ▸ hbid, ?_⟩
    rcases hchange.find?_item (hconsistent.item_le_lastId hitem) with
      hsame | ⟨row, status, hrow, hwritten⟩ | ⟨row, hrow, -, hfree⟩
    · exact ⟨item, hsame.trans hitem, hauction⟩
    · obtain rfl := Option.some.inj (hitem.symm.trans hrow)
      exact ⟨_, hwritten, hauction⟩
    · obtain rfl := Option.some.inj (hitem.symm.trans hrow)
      exact absurd rfl (auctionHasBids_eq_false_iff.mp hfree bid hbid item hitem)
  committed := by
    rintro market transaction ⟨bid, hbid, item, hitem, hauction⟩ hconsistent hready
    obtain ⟨status, heq⟩ := market.find?_committed_item transaction bid.itemId
    rw [hitem, Option.map_some] at heq
    exact ⟨bid, (mem_ledger_stable bid).committed hbid hconsistent hready, _, heq, hauction⟩

/-- A bid at a venue bars that the venue is given up, and no auction changes its venue. -/
theorem BidOnVenue.stable (venue : Int) : Stable (BidOnVenue venue) where
  change := by
    rintro market after named ⟨id, auction, hauction, hvenue, hbid⟩ hconsistent hchange
    have hbid' := (BidOnAuction.stable id).change hbid hconsistent hchange
    rcases hchange.find?_auction (hconsistent.auction_le_lastId hauction) with
      hsame | ⟨row, status, now, hrow, -, hwritten⟩ | ⟨hfree, -⟩
    · exact ⟨id, auction, hsame.trans hauction, hvenue, hbid'⟩
    · obtain rfl := Option.some.inj (hauction.symm.trans hrow)
      exact ⟨id, _, hwritten, hvenue, hbid'⟩
    · cases hfree.symm.trans (auctionHasBids_eq_true_iff.mpr hbid)
  committed := by
    rintro market transaction ⟨id, auction, hauction, hvenue, hbid⟩ hconsistent hready
    refine ⟨id, auction, ?_, hvenue, (BidOnAuction.stable id).committed hbid hconsistent hready⟩
    rwa [committed_auctions]

/-! ## Deleting an auction -/

/-- Whether a market is what is left of another without an auction and its items. -/
structure WithoutAuction (market : Market) (id : Int) (after : Market) : Prop where
  auctions : ∀ other, after.auctions.find? other =
    if other = id then none else market.auctions.find? other
  items : ∀ other, after.items.find? other =
    (market.items.find? other).filter fun item => item.auctionId ≠ id
  others : after = { market with auctions := after.auctions, items := after.items }

/-- What it means that an auction is deleted only without bids, along with its items. -/
structure GuardsAuction (market : Market) (id : Int) : Prop where
  succeeds_iff : (market.deleteAuction id).1 = .ok () ↔
    market.auctions.contains id = true ∧ ¬ market.BidOnAuction id
  removes : (market.deleteAuction id).1 = .ok () →
    market.WithoutAuction id (market.deleteAuction id).2
  missing_iff : (market.deleteAuction id).1 = .error (.notFound (.auction id)) ↔
    market.auctions.contains id = false
  barred_iff : (market.deleteAuction id).1 = .error (.conflict (.auctionHasBids id)) ↔
    market.auctions.contains id = true ∧ market.BidOnAuction id
  refused : (market.deleteAuction id).1 ≠ .ok () → (market.deleteAuction id).2 = market

theorem deleteAuction_missing (habsent : market.auctions.contains id = false) :
    market.deleteAuction id = (.error (.notFound (.auction id)), market) := by
  simp [deleteAuction, habsent]

theorem deleteAuction_barred (hfound : market.auctions.contains id = true)
    (hbid : market.BidOnAuction id) :
    market.deleteAuction id = (.error (.conflict (.auctionHasBids id)), market) := by
  simp [deleteAuction, hfound, auctionHasBids_eq_true_iff.mpr hbid]

/-- The auction of a bid is there, so its deletion fails for the bid. -/
theorem Consistent.deleteAuction_barred (hconsistent : market.Consistent)
    (hbid : market.BidOnAuction id) :
    market.deleteAuction id = (.error (.conflict (.auctionHasBids id)), market) := by
  obtain ⟨bid, hmem, item, hitem, rfl⟩ := hbid
  have hauction := hconsistent.linked.auction_of_item _ item hitem
  exact market.deleteAuction_barred hauction ⟨bid, hmem, item, hitem, rfl⟩

theorem deleteAuction_free (hfound : market.auctions.contains id = true)
    (hfree : ¬ market.BidOnAuction id) :
    (market.deleteAuction id).1 = .ok () ∧
      market.WithoutAuction id (market.deleteAuction id).2 := by
  rw [← auctionHasBids_eq_true_iff, Bool.not_eq_true] at hfree
  have heq : market.deleteAuction id = (.ok (), { market with
      auctions := market.auctions.erase id
      items := market.items.filter fun item => item.auctionId ≠ id }) := by
    simp [deleteAuction, hfound, hfree]
  rw [heq]
  exact ⟨rfl, market.auctions.find?_erase id, market.items.find?_filter _, rfl⟩

theorem guardsAuction (market : Market) (id : Int) : market.GuardsAuction id := by
  cases hfound : market.auctions.contains id with
  | false =>
      have heq := deleteAuction_missing hfound
      constructor <;> simp [heq, hfound]
  | true =>
      by_cases hbid : market.BidOnAuction id
      · have heq := deleteAuction_barred hfound hbid
        constructor <;> simp [heq, hfound, hbid]
      · obtain ⟨hok, hwithout⟩ := deleteAuction_free hfound hbid
        constructor <;> simp [hok, hfound, hbid, hwithout]

/-- An item goes with its auction. -/
theorem Consistent.itemGone_of_deleted (hconsistent : market.Consistent) {item : Item}
    {itemId : Int} (hitem : market.items.find? itemId = some item)
    (hdeleted : (market.deleteAuction item.auctionId).1 = .ok ()) :
    (market.deleteAuction item.auctionId).2.ItemGone itemId := by
  have hwithout := (market.guardsAuction item.auctionId).removes hdeleted
  constructor
  · rw [hwithout.others]
    exact hconsistent.item_le_lastId hitem
  · rw [hwithout.items, hitem]
    simp

/-! ## Giving up a venue -/

/-- Whether a market is another after one of its venues was given up. -/
structure WithVenueGivenUp (market : Market) (id : Int) (now : Instant) (after : Market) :
    Prop where
  venues : ∀ other, after.venues.find? other =
    if other = id then
      (market.venues.find? other).map fun venue => { venue with deletedAt? := some now }
    else market.venues.find? other
  others : after = { market with venues := after.venues }

/-- What it means that a venue is given up at most once, and only without bids. -/
structure GuardsVenue (market : Market) (id : Int) (now : Instant) : Prop where
  succeeds_iff : (market.softDeleteVenue id now).1 = .ok () ↔
    (∃ venue, market.venues.find? id = some venue ∧ venue.deletedAt? = none) ∧
      ¬ market.BidOnVenue id
  marks : (market.softDeleteVenue id now).1 = .ok () →
    market.WithVenueGivenUp id now (market.softDeleteVenue id now).2
  missing_iff : (market.softDeleteVenue id now).1 = .error (.notFound (.venue id)) ↔
    ∀ venue, market.venues.find? id = some venue → venue.deletedAt? ≠ none
  barred_iff : (market.softDeleteVenue id now).1 = .error (.conflict (.venueHasBids id)) ↔
    (∃ venue, market.venues.find? id = some venue ∧ venue.deletedAt? = none) ∧
      market.BidOnVenue id
  refused : (market.softDeleteVenue id now).1 ≠ .ok () →
    (market.softDeleteVenue id now).2 = market

theorem findVenue_eq_none_iff :
    market.findVenue id = none ↔
      ∀ venue, market.venues.find? id = some venue → venue.deletedAt? ≠ none := by
  simp [findVenue, Option.filter_eq_none_iff, Venue.isVisible]

theorem softDeleteVenue_missing (habsent : market.findVenue id = none) (now : Instant) :
    market.softDeleteVenue id now = (.error (.notFound (.venue id)), market) := by
  simp [softDeleteVenue, habsent]

theorem softDeleteVenue_barred (hfiled : market.Filed) {venue : Venue}
    (hfound : market.findVenue id = some venue) (hbid : market.BidOnVenue id) (now : Instant) :
    market.softDeleteVenue id now = (.error (.conflict (.venueHasBids id)), market) := by
  simp [softDeleteVenue, hfound, hfiled.venueHasBids_eq_true_iff.mpr hbid]

/-- With a bid at a venue it cannot be given up, whether or not that was done before. -/
theorem Consistent.softDeleteVenue_barred (hconsistent : market.Consistent)
    (hbid : market.BidOnVenue id) (now : Instant) :
    ∃ failure, market.softDeleteVenue id now = (.error failure, market) := by
  cases hfound : market.findVenue id with
  | none => exact ⟨_, softDeleteVenue_missing hfound now⟩
  | some venue => exact ⟨_, market.softDeleteVenue_barred hconsistent.filed hfound hbid now⟩

theorem softDeleteVenue_free (hfiled : market.Filed) {venue : Venue}
    (hfound : market.findVenue id = some venue) (hfree : ¬ market.BidOnVenue id) (now : Instant) :
    (market.softDeleteVenue id now).1 = .ok () ∧
      market.WithVenueGivenUp id now (market.softDeleteVenue id now).2 := by
  rw [← hfiled.venueHasBids_eq_true_iff, Bool.not_eq_true] at hfree
  have heq : market.softDeleteVenue id now = (.ok (), { market with
      venues := market.venues.modify id fun venue => { venue with deletedAt? := some now } }) := by
    simp [softDeleteVenue, hfound, hfree]
  rw [heq]
  refine ⟨rfl, fun other => ?_, rfl⟩
  rw [Table.find?_modify]

theorem Filed.guardsVenue (hfiled : market.Filed) (id : Int) (now : Instant) :
    market.GuardsVenue id now := by
  have hvisible : (∃ venue, market.venues.find? id = some venue ∧ venue.deletedAt? = none) ↔
      market.findVenue id ≠ none := by
    rw [ne_eq, findVenue_eq_none_iff]
    push Not
    exact Iff.rfl
  cases hfound : market.findVenue id with
  | none =>
      have heq := softDeleteVenue_missing hfound now
      constructor <;> simp only [heq, hvisible, hfound, ← findVenue_eq_none_iff] <;> simp
  | some venue =>
      by_cases hbid : market.BidOnVenue id
      · have heq := softDeleteVenue_barred hfiled hfound hbid now
        constructor <;> simp only [heq, hvisible, hfound, ← findVenue_eq_none_iff, hbid] <;> simp
      · obtain ⟨hok, hmarked⟩ := softDeleteVenue_free hfiled hfound hbid now
        constructor <;> simp only [hok, hvisible, hfound, ← findVenue_eq_none_iff, hbid] <;>
          simp [hmarked]

end FishMarket.Market
