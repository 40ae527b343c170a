import FishMarket.Market.Answer
import FishMarket.Proofs.Table

/-! # What a step of the market can do

Every call to a market in memory either commits a transaction or makes one of a few changes, each
with the guard under which it is made. Invariants of the market are proved once for each change
and once for a commit, and not for each call.
-/

namespace FishMarket

open Calendar

/-- The open transaction that a call names. -/
def StoreCall.transaction? : StoreCall → Option TransactionId
  | .commit transaction => some transaction
  | .rollback transaction => some transaction
  | .abandon transaction => some transaction
  | .setItemStatusIn transaction _ _ => some transaction
  | .insertBidIn transaction _ _ => some transaction
  | _ => none

/-- Whether a call has nothing to do with transactions. -/
def StoreCall.IsPlain (call : StoreCall) : Prop :=
  call ≠ .begin ∧ call.transaction? = none

/-- The bid that a staged write records. -/
def StagedWrite.bid? : StagedWrite → Option Bid
  | .itemStatus _ _ => none
  | .bid staged => some staged

namespace Market

/-! ## What is on record -/

/-- The entities that a market has on record. -/
structure Entities where
  venues : Table Venue
  auctions : Table Auction
  items : Table Item
  ledger : List Bid
  buyers : Table Buyer
  fishermen : Table Fisherman

/-- The entities of a market. Open transactions and counters are not among them. -/
def entities (market : Market) : Entities where
  venues := market.venues
  auctions := market.auctions
  items := market.items
  ledger := market.ledger
  buyers := market.buyers
  fishermen := market.fishermen

/-! ## Steps and runs -/

/-- A step of the market: a call to it, or the order to refuse the next bid. -/
inductive Step where
  | call (call : StoreCall)
  | refuseBid
deriving DecidableEq, Repr

/-- The market after a step. -/
def take (market : Market) : Step → Market
  | .call call => (market.answer call).2
  | .refuseBid => market.refuseBid

/-- The market after some steps. -/
def takeAll (market : Market) (steps : List Step) : Market :=
  steps.foldl take market

/-! ## Changes -/

/-- What a step other than a commit can do to a market, and the transaction that it names. -/
inductive Change (market : Market) : Option TransactionId → Market → Prop where
  | nothing {named} : Change market named market
  | venueAdded {named} (venue : Venue) (hid : venue.id = market.nextId)
      (hvisible : venue.isVisible = true) :
      Change market named
        { market.takeId with venues := market.venues.insert venue.id venue }
  | venueGivenUp {named} (id : Int) (now : Instant) (venue : Venue)
      (hfound : market.findVenue id = some venue) (hbids : market.venueHasBids id = false) :
      Change market named { market with
        venues := market.venues.modify id fun venue => { venue with deletedAt? := some now } }
  | auctionAdded {named} (auction : Auction) (hid : auction.id = market.nextId)
      (hvenue : market.venues.contains auction.venueId = true) :
      Change market named
        { market.takeId with auctions := market.auctions.insert auction.id auction }
  | auctionWritten {named} (id : Int) (auction : Auction) (status : AuctionStatus) (now : Instant)
      (hfound : market.auctions.find? id = some auction)
      (hopen : auction.status.isTerminal = false) :
      Change market named { market with
        auctions := market.auctions.modify id fun _ =>
          { auction with status := status, updatedAt := now } }
  | auctionDeleted {named} (id : Int) (hfound : market.auctions.contains id = true)
      (hbids : market.auctionHasBids id = false) :
      Change market named { market with
        auctions := market.auctions.erase id
        items := market.items.filter fun item => item.auctionId ≠ id }
  | itemAdded {named} (item : Item) (hid : item.id = market.nextId)
      (hauction : market.auctions.contains item.auctionId = true)
      (hfisherman : market.fishermen.contains item.fishermanId = true) :
      Change market named { market.takeId with items := market.items.insert item.id item }
  | itemWritten {named} (id : Int) (item : Item) (status : ItemStatus)
      (hfound : market.items.find? id = some item) (hallowed : item.status.allows status = true) :
      Change market named { market with
        items := market.items.modify id fun _ => { item with status := status } }
  | buyerAdded {named} (buyer : Buyer) (hid : buyer.id = market.nextId) :
      Change market named { market.takeId with buyers := market.buyers.insert buyer.id buyer }
  | fishermanAdded {named} (fisherman : Fisherman) (hid : fisherman.id = market.nextId) :
      Change market named
        { market.takeId with fishermen := market.fishermen.insert fisherman.id fisherman }
  | idTaken {named} : Change market named market.takeId
  | refusalSet {named} (refuse : Bool) :
      Change market named { market with refuseNextBid := refuse }
  | begun {named} : Change market named market.begin.2
  | statusStaged (transaction : TransactionId) (id : Int) (status : ItemStatus)
      (hitem : market.items.contains id = true) :
      Change market (some transaction) (market.stage transaction (.itemStatus id status))
  | bidStaged (transaction : TransactionId) (bid : Bid) (hid : bid.id = market.nextId)
      (hitem : market.items.contains bid.itemId = true)
      (hbuyer : market.buyers.contains bid.buyerId = true) :
      Change market (some transaction) (market.takeId.stage transaction (.bid bid))
  | closed (transaction : TransactionId) :
      Change market (some transaction) (market.close transaction)

/-! ## Commits -/

/-- The market after the writes of a transaction are applied and it is closed. -/
def committed (market : Market) (transaction : TransactionId) : Market :=
  (market.applyAll (market.writesOf transaction)).close transaction

/-- Whether the items of all staged writes of a transaction are there. -/
def Committable (market : Market) (transaction : TransactionId) : Prop :=
  market.orphan? (market.writesOf transaction) = none

theorem Committable.contains {market : Market} {transaction : TransactionId}
    (hready : market.Committable transaction) {write : StagedWrite}
    (hmem : write ∈ market.writesOf transaction) : market.items.contains write.item = true := by
  have hpresent := List.find?_eq_none.mp hready write hmem
  simpa using hpresent

/-- The items after one write. -/
def writeItem (items : Table Item) : StagedWrite → Table Item
  | .itemStatus id status => items.modify id fun item => { item with status := status }
  | .bid _ => items

/-- Writes touch the statuses of items and the end of the ledger. -/
theorem applyAll_eq (market : Market) (writes : List StagedWrite) :
    market.applyAll writes = { market with
      items := writes.foldl writeItem market.items
      ledger := market.ledger ++ writes.filterMap StagedWrite.bid? } := by
  induction writes generalizing market with
  | nil => simp [applyAll]
  | cons write rest ih =>
      change (market.apply write).applyAll rest = _
      rw [ih]
      cases write with
      | itemStatus id status => rfl
      | bid staged => simp [apply, writeItem, StagedWrite.bid?]

/-- What a commit changes: statuses of items, the end of the ledger, and what is staged. -/
theorem committed_eq (market : Market) (transaction : TransactionId) :
    market.committed transaction = { market with
      items := (market.writesOf transaction).foldl writeItem market.items
      ledger := market.ledger ++ (market.writesOf transaction).filterMap StagedWrite.bid?
      staged := market.staged.erase transaction } := by
  rw [committed, applyAll_eq]
  rfl

/-- The status that writes leave an item with. -/
def statusAfter (id : Int) (writes : List StagedWrite) (status : ItemStatus) : ItemStatus :=
  writes.foldl (fun status write =>
    match write with
    | .itemStatus item written => if id = item then written else status
    | .bid _ => status) status

theorem find?_writeItems (items : Table Item) (writes : List StagedWrite) (id : Int) :
    (writes.foldl writeItem items).find? id =
      (items.find? id).map fun item => { item with status := statusAfter id writes item.status } := by
  induction writes generalizing items with
  | nil => simp [statusAfter]
  | cons write rest ih =>
      rw [List.foldl_cons, ih]
      cases write with
      | itemStatus item status =>
          simp only [writeItem, Table.find?_modify]
          split
          next hsame => simp [statusAfter, hsame, Option.map_map, Function.comp_def]
          next hother => simp [statusAfter, hother]
      | bid staged => rfl

theorem contains_writeItems (items : Table Item) (writes : List StagedWrite) (id : Int) :
    (writes.foldl writeItem items).contains id = items.contains id := by
  simp [Table.contains, find?_writeItems]

/-! ## Every call is a change or a commit -/

theorem writeAuctionStatus_change (market : Market) (named : Option TransactionId) (id : Int)
    (status : AuctionStatus) (now : Instant) :
    Change market named (market.writeAuctionStatus id status now).2 := by
  unfold writeAuctionStatus
  split
  next => exact .nothing
  next auction hfound =>
    split
    next => exact .nothing
    next hopen => exact .auctionWritten id auction status now hfound (by simpa using hopen)

theorem updateItemStatus_change (market : Market) (named : Option TransactionId) (id : Int)
    (status : ItemStatus) : Change market named (market.updateItemStatus id status).2 := by
  unfold updateItemStatus
  split
  next => exact .nothing
  next item hfound =>
    split
    next hallowed => exact .itemWritten id item status hfound hallowed
    next => exact .nothing

theorem softDeleteVenue_change (market : Market) (named : Option TransactionId) (id : Int)
    (now : Instant) : Change market named (market.softDeleteVenue id now).2 := by
  unfold softDeleteVenue
  split
  next => exact .nothing
  next hfound =>
    split
    next => exact .nothing
    next hbids =>
      obtain ⟨venue, hvenue⟩ := Option.ne_none_iff_exists'.mp (by simpa using hfound)
      exact .venueGivenUp id now venue hvenue (by simpa using hbids)

theorem deleteAuction_change (market : Market) (named : Option TransactionId) (id : Int) :
    Change market named (market.deleteAuction id).2 := by
  unfold deleteAuction
  split
  next => exact .nothing
  next hfound =>
    split
    next => exact .nothing
    next hbids => exact .auctionDeleted id (by simpa using hfound) (by simpa using hbids)

theorem createAuction_change (market : Market) (named : Option TransactionId) (new : NewAuction)
    (now : Instant) : Change market named (market.createAuction new now).2 := by
  unfold createAuction
  extract_lets auction
  split
  next hvenue => exact .auctionAdded auction rfl hvenue
  next => exact .idTaken

theorem createItem_change (market : Market) (named : Option TransactionId) (new : NewItem)
    (now : Instant) : Change market named (market.createItem new now).2 := by
  unfold createItem
  extract_lets item
  split
  next hpresent =>
    obtain ⟨hauction, hfisherman⟩ := Bool.and_eq_true_iff.mp hpresent
    exact .itemAdded item rfl hauction hfisherman
  next => exact .idTaken

theorem completeAuction_change (market : Market) (named : Option TransactionId) (id : Int)
    (now : Instant) : Change market named (market.completeAuction id now).2 := by
  unfold completeAuction
  split
  next => exact .nothing
  next =>
    split
    next => exact .nothing
    next => exact market.writeAuctionStatus_change named id .completed now

theorem setItemStatusIn_change (market : Market) (transaction : TransactionId) (id : Int)
    (status : ItemStatus) :
    Change market (some transaction) (market.setItemStatusIn transaction id status).2 := by
  unfold setItemStatusIn
  split
  next hitem => exact .statusStaged transaction id status hitem
  next => exact .nothing

theorem insertBidIn_change (market : Market) (transaction : TransactionId) (place : PlaceBid)
    (now : Instant) :
    Change market (some transaction) (market.insertBidIn transaction place now).2 := by
  unfold insertBidIn
  split
  next => exact .refusalSet false
  next =>
    split
    next hpresent =>
      obtain ⟨hitem, hbuyer⟩ := Bool.and_eq_true_iff.mp hpresent
      exact .bidStaged transaction _ rfl hitem hbuyer
    next => exact .nothing

/-- An auction is written, or nothing at all. -/
theorem writeAuctionStatus_cases (market : Market) (id : Int) (status : AuctionStatus)
    (now : Instant) :
    market.writeAuctionStatus id status now = (none, market) ∨
      ∃ auction, market.writeAuctionStatus id status now =
        (some auction, { market with auctions := market.auctions.modify id fun _ => auction }) := by
  unfold writeAuctionStatus
  split
  next => exact .inl rfl
  next auction _ =>
    split
    next => exact .inl rfl
    next => exact .inr ⟨{ auction with status := status, updatedAt := now }, rfl⟩

/-- An item is written, or nothing at all. -/
theorem updateItemStatus_cases (market : Market) (id : Int) (status : ItemStatus) :
    market.updateItemStatus id status = (none, market) ∨
      ∃ item, market.updateItemStatus id status =
        (some item, { market with items := market.items.modify id fun _ => item }) := by
  unfold updateItemStatus
  split
  next => exact .inl rfl
  next item _ =>
    split
    next => exact .inr ⟨{ item with status := status }, rfl⟩
    next => exact .inl rfl

/-- An auction is deleted with its items, or nothing at all. -/
theorem deleteAuction_cases (market : Market) (id : Int) :
    (∃ failure, market.deleteAuction id = (.error failure, market)) ∨
      market.deleteAuction id = (.ok (), { market with
        auctions := market.auctions.erase id
        items := market.items.filter fun item => item.auctionId ≠ id }) := by
  unfold deleteAuction
  split
  next => exact .inl ⟨_, rfl⟩
  next =>
    split
    next => exact .inl ⟨_, rfl⟩
    next => exact .inr rfl

/-- A commit that is refused closes its transaction; any other applies all writes. -/
theorem commit_cases (market : Market) (transaction : TransactionId) :
    (∃ failure, market.commit transaction = (.error failure, market.close transaction)) ∨
      market.Committable transaction ∧
        market.commit transaction = (.ok (), market.committed transaction) := by
  unfold commit
  simp only
  split
  next write _ => exact .inl ⟨_, rfl⟩
  next hready => exact .inr ⟨hready, rfl⟩

/-- A call that is no commit makes a change. -/
theorem answer_change (market : Market) (call : StoreCall)
    (hcall : ∀ transaction, call ≠ .commit transaction) :
    Change market call.transaction? (market.answer call).2 := by
  cases call with
  | begin => exact .begun
  | commit transaction => exact absurd rfl (hcall transaction)
  | rollback transaction | abandon transaction => exact .closed transaction
  | createVenue venue now => exact .venueAdded _ rfl rfl
  | softDeleteVenue id now => exact market.softDeleteVenue_change none id now
  | createAuction auction now => exact market.createAuction_change none auction now
  | updateAuctionStatus id status now =>
      exact market.writeAuctionStatus_change none id status now
  | completeAuction id now => exact market.completeAuction_change none id now
  | deleteAuction id => exact market.deleteAuction_change none id
  | createItem item now => exact market.createItem_change none item now
  | updateItemStatus id status => exact market.updateItemStatus_change none id status
  | setItemStatusIn transaction id status =>
      exact market.setItemStatusIn_change transaction id status
  | insertBidIn transaction bid now => exact market.insertBidIn_change transaction bid now
  | createBuyer name now => exact .buyerAdded _ rfl
  | createFisherman name now => exact .fishermanAdded _ rfl
  | findVenue | listVenues | findAuction | listAuctions | listOpenAuctions | findItem
  | listItemListings | listBidsForItem | highestBid | buyerTotals | findBuyer | findFisherman =>
      exact .nothing

/-- A step makes a change, or it commits a transaction. -/
theorem take_cases (market : Market) (step : Step) :
    (∃ named, Change market named (market.take step)) ∨
      ∃ transaction, market.Committable transaction ∧
        market.take step = market.committed transaction := by
  cases step with
  | refuseBid => exact .inl ⟨none, .refusalSet true⟩
  | call call =>
      by_cases hcommit : ∃ transaction, call = .commit transaction
      · obtain ⟨transaction, rfl⟩ := hcommit
        rcases market.commit_cases transaction with ⟨failure, heq⟩ | ⟨hready, heq⟩
        · refine .inl ⟨some transaction, ?_⟩
          change Change market _ (market.commit transaction).2
          rw [heq]
          exact .closed transaction
        · refine .inr ⟨transaction, hready, ?_⟩
          change (market.commit transaction).2 = _
          rw [heq]
      · exact .inl ⟨_, market.answer_change call fun transaction heq => hcommit ⟨_, heq⟩⟩

end Market

end FishMarket
