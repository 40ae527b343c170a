import FishMarket.Proofs.Market.Consistency

/-! # What becomes of rows

Once an id was given out, only little can happen to the row under it: an item gets another status,
an auction that has not ended gets one, and a deletion takes an auction away with its items, unless
there are bids on them. What survives every change and every commit survives all that is ever asked
of the market.
-/

namespace FishMarket.Market

open Calendar

variable {market after : Market} {named : Option TransactionId} {id : Int}

/-- Whether a property of the market survives every change and every commit. -/
structure Stable (property : Market → Prop) : Prop where
  change : ∀ {market after : Market} {named : Option TransactionId}, property market →
    market.Consistent → Change market named after → property after
  committed : ∀ {market : Market} {transaction : TransactionId}, property market →
    market.Consistent → market.Committable transaction → property (market.committed transaction)

namespace Stable

variable {property : Market → Prop}

theorem take (hstable : Stable property) (hholds : property market)
    (hconsistent : market.Consistent) (step : Step) : property (market.take step) := by
  rcases market.take_cases step with ⟨named, hchange⟩ | ⟨transaction, hready, heq⟩
  · exact hstable.change hholds hconsistent hchange
  · exact heq ▸ hstable.committed hholds hconsistent hready

end Stable

theorem Change.lastId_le (hchange : Change market named after) :
    market.lastId ≤ after.lastId := by
  have hnext : market.lastId ≤ market.nextId := Int.le_add_one (Int.le_refl market.lastId)
  cases hchange with
  | nothing | refusalSet | venueGivenUp | auctionWritten | auctionDeleted | itemWritten | begun
  | statusStaged | closed => exact Int.le_refl _
  | venueAdded | auctionAdded | itemAdded | buyerAdded | fishermanAdded | idTaken | bidStaged =>
      exact hnext

theorem committed_lastId (market : Market) (transaction : TransactionId) :
    (market.committed transaction).lastId = market.lastId := by
  rw [committed_eq]

/-- An id that was given out stays so. -/
theorem le_lastId_stable (id : Int) : Stable fun market => id ≤ market.lastId where
  change hgiven _ hchange := Int.le_trans hgiven hchange.lastId_le
  committed hgiven _ _ := by rwa [committed_lastId]

theorem Change.ledger_eq (hchange : Change market named after) :
    after.ledger = market.ledger := by
  cases hchange <;> rfl

/-- A bid that was recorded stays in the ledger. -/
theorem mem_ledger_stable (bid : Bid) : Stable fun market => bid ∈ market.ledger where
  change hmem _ hchange := hchange.ledger_eq ▸ hmem
  committed hmem _ _ := by
    rw [committed_eq]
    exact List.mem_append_left _ hmem

theorem Consistent.stable : Stable Consistent where
  change hconsistent _ hchange := hconsistent.change hchange
  committed hconsistent _ hready := hconsistent.committed hready

theorem ne_nextId (hgiven : id ≤ market.lastId) : id ≠ market.nextId := by
  rintro rfl
  exact absurd hgiven (Int.not_le.mpr (Int.lt_succ _))

/-! ## Rows of items -/

/-- What a change can do to the item under an id that was given out. -/
theorem Change.find?_item (hchange : Change market named after) (hgiven : id ≤ market.lastId) :
    after.items.find? id = market.items.find? id ∨
    (∃ item status, market.items.find? id = some item ∧
      after.items.find? id = some { item with status := status }) ∨
    ∃ item, market.items.find? id = some item ∧ after.items.find? id = none ∧
      market.auctionHasBids item.auctionId = false := by
  cases hchange with
  | nothing | idTaken | refusalSet | venueAdded | venueGivenUp | auctionAdded | auctionWritten
  | buyerAdded | fishermanAdded | begun | statusStaged | bidStaged | closed => exact .inl rfl
  | itemAdded item hid =>
      refine .inl ?_
      rw [Table.find?_insert, hid, if_neg (ne_nextId hgiven)]
  | itemWritten other item status hfound =>
      rw [Table.find?_modify]
      split
      next hsame =>
        subst hsame
        exact .inr (.inl ⟨item, status, hfound, by rw [hfound, Option.map_some]⟩)
      next => exact .inl rfl
  | auctionDeleted auction hauction hbids =>
      rw [Table.find?_filter]
      cases hfound : market.items.find? id with
      | none => exact .inl rfl
      | some item =>
          by_cases hitem : item.auctionId = auction
          · subst hitem
            exact .inr (.inr ⟨item, rfl, by simp, hbids⟩)
          · exact .inl (by simp [hitem])

/-- A commit gives items another status, and nothing else. -/
theorem find?_committed_item (market : Market) (transaction : TransactionId) (id : Int) :
    ∃ status : Item → ItemStatus, (market.committed transaction).items.find? id =
      (market.items.find? id).map fun item => { item with status := status item } := by
  rw [committed_eq]
  exact ⟨_, find?_writeItems _ _ _⟩

/-- The id of an item was given out. -/
theorem Consistent.item_le_lastId (hconsistent : market.Consistent) {item : Item}
    (hitem : market.items.find? id = some item) : id ≤ market.lastId := by
  have hvalue : item ∈ market.items.values := Table.mem_values_iff.mpr ⟨id, hitem⟩
  have hmem : item.id ∈ market.ids := by
    simp only [ids, entityIds, List.mem_append]
    exact .inl (.inl (.inl (.inl (.inr (List.mem_map_of_mem hvalue)))))
  rw [hconsistent.filed.items id item hitem] at hmem
  exact (hconsistent.numbered.within id hmem).2

/-- Whether an id was given out and there is no item under it. -/
def ItemGone (id : Int) (market : Market) : Prop :=
  id ≤ market.lastId ∧ market.items.find? id = none

/-- An item that is gone does not come back. -/
theorem ItemGone.stable (id : Int) : Stable (ItemGone id) where
  change := by
    rintro market after named ⟨hgiven, hnone⟩ - hchange
    refine ⟨Int.le_trans hgiven hchange.lastId_le, ?_⟩
    rcases hchange.find?_item hgiven with hsame | ⟨item, status, hfound, -⟩ | ⟨item, hfound, -⟩
    · exact hsame.trans hnone
    · cases hnone.symm.trans hfound
    · cases hnone.symm.trans hfound
  committed := by
    rintro market transaction ⟨hgiven, hnone⟩ - -
    obtain ⟨status, heq⟩ := market.find?_committed_item transaction id
    refine ⟨?_, by rw [heq, hnone, Option.map_none]⟩
    rwa [committed_lastId]

/-! ## Rows of auctions -/

/-- What a change can do to the auction under an id that was given out. -/
theorem Change.find?_auction (hchange : Change market named after) (hgiven : id ≤ market.lastId) :
    after.auctions.find? id = market.auctions.find? id ∨
    (∃ auction status now, market.auctions.find? id = some auction ∧
      auction.status.isTerminal = false ∧
      after.auctions.find? id = some { auction with status := status, updatedAt := now }) ∨
    market.auctionHasBids id = false ∧ after.auctions.find? id = none := by
  cases hchange with
  | nothing | idTaken | refusalSet | venueAdded | venueGivenUp | itemAdded | itemWritten
  | buyerAdded | fishermanAdded | begun | statusStaged | bidStaged | closed => exact .inl rfl
  | auctionAdded auction hid =>
      refine .inl ?_
      rw [Table.find?_insert, hid, if_neg (ne_nextId hgiven)]
  | auctionWritten other auction status now hfound hopen =>
      rw [Table.find?_modify]
      split
      next hsame =>
        subst hsame
        exact .inr (.inl ⟨auction, status, now, hfound, hopen, by rw [hfound, Option.map_some]⟩)
      next => exact .inl rfl
  | auctionDeleted auction hauction hbids =>
      rw [Table.find?_erase]
      split
      next hsame => exact .inr (.inr ⟨hsame ▸ hbids, rfl⟩)
      next => exact .inl rfl

theorem committed_auctions (market : Market) (transaction : TransactionId) :
    (market.committed transaction).auctions = market.auctions := by
  rw [committed_eq]

/-- The id of an auction was given out. -/
theorem Consistent.auction_le_lastId (hconsistent : market.Consistent) {auction : Auction}
    (hauction : market.auctions.find? id = some auction) : id ≤ market.lastId := by
  have hvalue : auction ∈ market.auctions.values := Table.mem_values_iff.mpr ⟨id, hauction⟩
  have hmem : auction.id ∈ market.ids := by
    simp only [ids, entityIds, List.mem_append]
    exact .inl (.inl (.inl (.inl (.inl (.inr (List.mem_map_of_mem hvalue))))))
  rw [hconsistent.filed.auctions id auction hauction] at hmem
  exact (hconsistent.numbered.within id hmem).2

end FishMarket.Market
