import Mathlib.Data.List.Nodup
import FishMarket.Proofs.Market.Change

/-! # Ids of the market

One counter numbers venues, auctions, items, parties and bids, those that are only staged included.
No id is in use twice, and what is added gets one that was never given out before.
-/

namespace FishMarket.Market

open List (count count_append count_cons nodup_iff_count_le_one subperm_iff_count)

variable {market after : Market} {named : Option TransactionId}

/-! ## The ids in use -/

/-- The ids of all entities on record. -/
def entityIds (market : Market) : List Int :=
  market.venues.values.map Venue.id ++ market.auctions.values.map Auction.id ++
    market.items.values.map Item.id ++ market.buyers.values.map Buyer.id ++
    market.fishermen.values.map Fisherman.id ++ market.ledger.map Bid.id

/-- The bids that open transactions have staged. -/
def stagedBids (market : Market) : List Bid :=
  market.staged.values.flatten.filterMap StagedWrite.bid?

/-- The ids of all entities on record and of all staged bids. -/
def ids (market : Market) : List Int :=
  market.entityIds ++ market.stagedBids.map Bid.id

/-- Whether an id is that of an entity on record. -/
def Denotes (market : Market) (id : Int) : Prop :=
  id ∈ market.entityIds

/-- Whether every row of every table stands under its own id. -/
structure Filed (market : Market) : Prop where
  venues : market.venues.Keyed Venue.id
  auctions : market.auctions.Keyed Auction.id
  items : market.items.Keyed Item.id
  buyers : market.buyers.Keyed Buyer.id
  fishermen : market.fishermen.Keyed Fisherman.id

/-- Whether no id is in use twice, and all of them were given out. -/
structure Numbered (market : Market) : Prop where
  distinct : market.ids.Nodup
  within : ∀ id ∈ market.ids, 0 < id ∧ id ≤ market.lastId
  counted : 0 ≤ market.lastId

/-- Whether every open transaction has a handle that was given out. -/
def Handled (market : Market) : Prop :=
  ∀ transaction writes, market.staged.find? transaction = some writes →
    transaction ≤ market.lastTransaction

/-- What a step may do to the ids in use: some may go out of use, and if an id is given out, it is
the next one. -/
inductive Renumbered (market after : Market) : Prop where
  | kept (hids : ∀ id, count id after.ids ≤ count id market.ids)
      (hlast : after.lastId = market.lastId)
  | drawn (hids : ∀ id, count id after.ids ≤ count id (market.nextId :: market.ids))
      (hlast : after.lastId = market.nextId)

theorem Renumbered.lastId_le (hids : market.Renumbered after) :
    market.lastId ≤ after.lastId := by
  cases hids with
  | kept _ hlast => exact Int.le_of_eq hlast.symm
  | drawn _ hlast =>
      have hnext : market.nextId = market.lastId + 1 := rfl
      omega

theorem Renumbered.mem_ids (hids : market.Renumbered after) {id : Int} (hmem : id ∈ after.ids) :
    id ∈ market.ids ∨ id = market.nextId ∧ id = after.lastId := by
  cases hids with
  | kept hids _ => exact .inl ((subperm_iff_count.mpr hids).subset hmem)
  | drawn hids hlast =>
      rcases List.mem_cons.mp ((subperm_iff_count.mpr hids).subset hmem) with hnew | hold
      · exact .inr ⟨hnew, hnew.trans hlast.symm⟩
      · exact .inl hold

namespace Numbered

theorem nextId_notMem (hnumbered : market.Numbered) : market.nextId ∉ market.ids := by
  intro hmem
  have hwithin := hnumbered.within _ hmem
  have hnext : market.nextId = market.lastId + 1 := rfl
  omega

theorem renumbered (hnumbered : market.Numbered) (hids : market.Renumbered after) :
    after.Numbered := by
  have hcounted := hnumbered.counted
  have hlast := hids.lastId_le
  refine ⟨?_, ?_, by omega⟩
  · rw [nodup_iff_count_le_one]
    intro id
    cases hids with
    | kept hids _ =>
        exact Nat.le_trans (hids id) (nodup_iff_count_le_one.mp hnumbered.distinct id)
    | drawn hids _ =>
        have hdistinct := List.nodup_cons.mpr ⟨hnumbered.nextId_notMem, hnumbered.distinct⟩
        exact Nat.le_trans (hids id) (nodup_iff_count_le_one.mp hdistinct id)
  · intro id hmem
    have hnext : market.nextId = market.lastId + 1 := rfl
    rcases hids.mem_ids hmem with hold | hnew
    · have hwithin := hnumbered.within id hold
      omega
    · omega

/-- No row stands under the next id. -/
theorem find?_nextId {α : Type} {id : α → Int} {table : Table α} (hnumbered : market.Numbered)
    (hkeyed : table.Keyed id) (hids : ∀ row ∈ table.values, id row ∈ market.ids) :
    table.find? market.nextId = none := by
  cases hfound : table.find? market.nextId with
  | none => rfl
  | some row =>
      have hmem := hids row (Table.mem_values_iff.mpr ⟨_, hfound⟩)
      rw [hkeyed _ _ hfound] at hmem
      exact absurd hmem hnumbered.nextId_notMem

end Numbered

/-! ## Staged bids -/

/-- The staged bids are those of one transaction and those of all others. -/
theorem stagedBids_perm (market : Market) (transaction : TransactionId) :
    market.stagedBids.Perm ((market.writesOf transaction).filterMap StagedWrite.bid? ++
      (market.close transaction).stagedBids) := by
  unfold stagedBids writesOf close
  cases hfound : market.staged.find? transaction with
  | none => simp [Table.erase_eq_self hfound]
  | some writes =>
      have hperm := (Table.values_erase_perm hfound).flatten.filterMap StagedWrite.bid?
      simpa using hperm

theorem stagedBids_close_subperm (market : Market) (transaction : TransactionId) :
    (market.close transaction).stagedBids.Subperm market.stagedBids :=
  (List.sublist_append_right _ _).subperm.trans (market.stagedBids_perm transaction).symm.subperm

/-- Staging adds at most the bid of the write. -/
theorem stagedBids_stage_subperm (market : Market) (transaction : TransactionId)
    (write : StagedWrite) :
    (market.stage transaction write).stagedBids.Subperm
      (write.bid?.toList ++ market.stagedBids) := by
  unfold stage
  cases hfound : market.staged.find? transaction with
  | none =>
      rw [Table.modify_eq_self _ hfound]
      exact (List.sublist_append_right _ _).subperm
  | some writes =>
      have hafter := (Table.values_modify_perm (fun writes => writes ++ [write])
        hfound).flatten.filterMap StagedWrite.bid?
      have hbefore := (Table.values_erase_perm hfound).flatten.filterMap StagedWrite.bid?
      have hwrite : [write].filterMap StagedWrite.bid? = write.bid?.toList := by
        cases hbid : write.bid? <;> simp [hbid]
      simp only [List.flatten_cons, List.filterMap_append] at hafter hbefore
      rw [hwrite] at hafter
      apply List.Perm.subperm
      refine hafter.trans ((List.perm_append_comm.append_right _).trans ?_)
      rw [List.append_assoc]
      exact hbefore.symm.append_left _

theorem stagedBids_begin (market : Market)
    (hnew : market.staged.find? (market.lastTransaction + 1) = none) :
    market.begin.2.stagedBids.Perm market.stagedBids := by
  have hperm := (Table.values_insert_perm hnew []).flatten.filterMap StagedWrite.bid?
  simpa [stagedBids, begin] using hperm

/-- How often the ids of staged bids occur once a bid is staged. -/
theorem count_stagedIds_stage (market : Market) (transaction : TransactionId)
    (write : StagedWrite) (id : Int) :
    count id ((market.stage transaction write).stagedBids.map Bid.id) ≤
      count id (write.bid?.toList.map Bid.id) + count id (market.stagedBids.map Bid.id) := by
  obtain ⟨staged, hperm, hsub⟩ := market.stagedBids_stage_subperm transaction write
  rw [← count_append, ← List.map_append, ← (hperm.map _).count_eq]
  exact (hsub.map _).count_le id

/-! ## Changes and commits -/

/-- Every change leaves the rows under their ids. -/
theorem Filed.change (hfiled : market.Filed) (hchange : Change market named after) :
    after.Filed := by
  cases hchange with
  | nothing | idTaken | refusalSet | begun | statusStaged | bidStaged | closed =>
      exact ⟨hfiled.venues, hfiled.auctions, hfiled.items, hfiled.buyers, hfiled.fishermen⟩
  | venueAdded venue =>
      exact { hfiled with venues := hfiled.venues.insert venue }
  | venueGivenUp id =>
      exact { hfiled with venues := hfiled.venues.modify fun _ _ => rfl }
  | auctionAdded auction =>
      exact { hfiled with auctions := hfiled.auctions.insert auction }
  | auctionWritten id auction status now hfound =>
      refine { hfiled with auctions := hfiled.auctions.modify fun row hrow => ?_ }
      obtain rfl := Option.some.inj (hfound.symm.trans hrow)
      rfl
  | auctionDeleted id =>
      exact { hfiled with
        auctions := hfiled.auctions.erase id
        items := hfiled.items.filter _ }
  | itemAdded item =>
      exact { hfiled with items := hfiled.items.insert item }
  | itemWritten id item status hfound =>
      refine { hfiled with items := hfiled.items.modify fun row hrow => ?_ }
      obtain rfl := Option.some.inj (hfound.symm.trans hrow)
      rfl
  | buyerAdded buyer =>
      exact { hfiled with buyers := hfiled.buyers.insert buyer }
  | fishermanAdded fisherman =>
      exact { hfiled with fishermen := hfiled.fishermen.insert fisherman }

theorem Handled.find?_next (hhandled : market.Handled) :
    market.staged.find? (market.lastTransaction + 1) = none := by
  cases hfound : market.staged.find? (market.lastTransaction + 1) with
  | none => rfl
  | some writes =>
      have hle := hhandled _ _ hfound
      omega

/-- Every change keeps the handles of open transactions among those given out. -/
theorem Handled.change (hhandled : market.Handled) (hchange : Change market named after) :
    after.Handled := by
  intro transaction writes hfound
  cases hchange with
  | nothing | idTaken | refusalSet | venueAdded | venueGivenUp | auctionAdded | auctionWritten
  | auctionDeleted | itemAdded | itemWritten | buyerAdded | fishermanAdded =>
      exact hhandled transaction writes hfound
  | begun =>
      simp only [begin, Table.find?_insert] at hfound ⊢
      split at hfound
      next hsame => omega
      next =>
        have hle := hhandled transaction writes hfound
        omega
  | statusStaged | bidStaged =>
      simp only [stage, takeId, Table.find?_modify] at hfound ⊢
      split at hfound
      next =>
        obtain ⟨before, hbefore, -⟩ := Option.map_eq_some_iff.mp hfound
        exact hhandled transaction before hbefore
      next => exact hhandled transaction writes hfound
  | closed other =>
      simp only [close, Table.find?_erase] at hfound ⊢
      split at hfound
      next => exact absurd hfound (by simp)
      next => exact hhandled transaction writes hfound

/-- No table has a row under the id that is given out next. -/
theorem Numbered.find?_next (hfiled : market.Filed) (hnumbered : market.Numbered) :
    market.venues.find? market.nextId = none ∧ market.auctions.find? market.nextId = none ∧
      market.items.find? market.nextId = none ∧ market.buyers.find? market.nextId = none ∧
      market.fishermen.find? market.nextId = none := by
  refine ⟨hnumbered.find?_nextId hfiled.venues ?_, hnumbered.find?_nextId hfiled.auctions ?_,
    hnumbered.find?_nextId hfiled.items ?_, hnumbered.find?_nextId hfiled.buyers ?_,
    hnumbered.find?_nextId hfiled.fishermen ?_⟩
  all_goals
    intro row hrow
    have hmem := List.mem_map_of_mem (f := (·.id)) hrow
    simp only [ids, entityIds, List.mem_append]
    tauto

/-- A row that is added under the next id is the only thing of that id. -/
theorem Renumbered.added {α : Type} {id : α → Int} {table : Table α} {row : α}
    (hnew : table.find? market.nextId = none)
    (hid : id row = market.nextId)
    (hids : ∀ key, count key after.ids + count key (table.values.map id) =
      count key ((table.insert (id row) row).values.map id) + count key market.ids)
    (hlast : after.lastId = market.nextId) : market.Renumbered after := by
  rw [← hid] at hnew
  refine .drawn (fun key => ?_) hlast
  have hadded := ((Table.values_insert_perm hnew row).map id).count_eq key
  have hcount := hids key
  simp only [List.map_cons, count_cons, hid] at hadded hcount ⊢
  omega

/-- Every change numbers what it adds with the next id. -/
theorem Change.renumbered (hfiled : market.Filed) (hhandled : market.Handled)
    (hnumbered : market.Numbered) (hchange : Change market named after) :
    market.Renumbered after := by
  obtain ⟨hvenue, hauction, hitem, hbuyer, hfisherman⟩ := hnumbered.find?_next hfiled
  -- each table and the staged bids are counted by themselves, and the counts are added up
  cases hchange with
  | nothing | refusalSet => exact .kept (fun _ => Nat.le_refl _) rfl
  | idTaken => exact .drawn (fun id => (List.sublist_cons_self _ _).count_le id) rfl
  | venueAdded venue hid =>
      apply Renumbered.added hvenue hid ?_ rfl
      intro key
      simp only [ids, entityIds, stagedBids, takeId, count_append]
      omega
  | auctionAdded auction hid =>
      apply Renumbered.added hauction hid ?_ rfl
      intro key
      simp only [ids, entityIds, stagedBids, takeId, count_append]
      omega
  | itemAdded item hid =>
      apply Renumbered.added hitem hid ?_ rfl
      intro key
      simp only [ids, entityIds, stagedBids, takeId, count_append]
      omega
  | buyerAdded buyer hid =>
      apply Renumbered.added hbuyer hid ?_ rfl
      intro key
      simp only [ids, entityIds, stagedBids, takeId, count_append]
      omega
  | fishermanAdded fisherman hid =>
      apply Renumbered.added hfisherman hid ?_ rfl
      intro key
      simp only [ids, entityIds, stagedBids, takeId, count_append]
      omega
  | venueGivenUp id now =>
      refine .kept (fun other => ?_) rfl
      have hsame : (market.venues.modify id fun venue =>
          { venue with deletedAt? := some now }).values.map Venue.id =
          market.venues.values.map Venue.id := Table.map_values_modify fun _ _ => rfl
      simp only [ids, entityIds, stagedBids, hsame]
      exact Nat.le_refl _
  | auctionWritten id auction status now hfound =>
      refine .kept (fun other => ?_) rfl
      have hsame : (market.auctions.modify id fun _ =>
          { auction with status := status, updatedAt := now }).values.map Auction.id =
          market.auctions.values.map Auction.id := Table.map_values_replace hfound rfl
      simp only [ids, entityIds, stagedBids, hsame]
      exact Nat.le_refl _
  | itemWritten id item status hfound =>
      refine .kept (fun other => ?_) rfl
      have hsame : (market.items.modify id fun _ => { item with status := status }).values.map
          Item.id = market.items.values.map Item.id := Table.map_values_replace hfound rfl
      simp only [ids, entityIds, stagedBids, hsame]
      exact Nat.le_refl _
  | auctionDeleted id =>
      refine .kept (fun other => ?_) rfl
      have hauctions := ((market.auctions.values_erase_sublist id).map Auction.id).count_le other
      have hitems := ((List.filter_sublist (l := market.items.values)
        (p := fun item => item.auctionId ≠ id)).map Item.id).count_le other
      simp only [ids, entityIds, stagedBids, Table.values_filter, count_append] at hitems ⊢
      omega
  | begun =>
      refine .kept (fun id => ?_) rfl
      have hcount := ((market.stagedBids_begin hhandled.find?_next).map Bid.id).count_eq id
      simp only [ids, entityIds, begin, count_append] at hcount ⊢
      omega
  | statusStaged transaction item status =>
      refine .kept (fun id => ?_) rfl
      have hcount := market.count_stagedIds_stage transaction (.itemStatus item status) id
      simp only [ids, entityIds, stage, count_append, StagedWrite.bid?, Option.toList_none,
        List.map_nil, List.count_nil] at hcount ⊢
      omega
  | bidStaged transaction bid hid =>
      refine .drawn (fun id => ?_) rfl
      have hcount := market.takeId.count_stagedIds_stage transaction (.bid bid) id
      have hstaged : market.takeId.stagedBids = market.stagedBids := rfl
      rw [hstaged] at hcount
      simp only [ids, entityIds, stage, takeId, count_append, count_cons, StagedWrite.bid?,
        Option.toList_some, List.map_cons, List.map_nil, List.count_nil, hid] at hcount ⊢
      omega
  | closed transaction =>
      refine .kept (fun id => ?_) rfl
      obtain ⟨staged, hperm, hsub⟩ := market.stagedBids_close_subperm transaction
      have hcount := (hsub.map Bid.id).count_le id
      rw [(hperm.map _).count_eq] at hcount
      simp only [ids, entityIds, close, count_append] at hcount ⊢
      omega

theorem values_writeItems (items : Table Item) (writes : List StagedWrite) :
    (writes.foldl writeItem items).values.map Item.id = items.values.map Item.id := by
  induction writes generalizing items with
  | nil => rfl
  | cons write rest ih =>
      rw [List.foldl_cons, ih]
      cases write with
      | itemStatus id status => exact Table.map_values_modify fun _ _ => rfl
      | bid staged => rfl

/-- A commit leaves the rows under their ids. -/
theorem Filed.committed (hfiled : market.Filed) (transaction : TransactionId) :
    (market.committed transaction).Filed := by
  rw [committed_eq]
  refine { hfiled with items := ?_ }
  intro id row hrow
  rw [find?_writeItems] at hrow
  obtain ⟨item, hitem, rfl⟩ := Option.map_eq_some_iff.mp hrow
  exact hfiled.items id item hitem

theorem Handled.committed (hhandled : market.Handled) (transaction : TransactionId) :
    (market.committed transaction).Handled := by
  rw [committed_eq]
  have hclosed := hhandled.change (.closed transaction)
  exact hclosed

/-- The staged bids of a transaction move to the ledger with their ids. -/
theorem renumbered_committed (market : Market) (transaction : TransactionId) :
    market.Renumbered (market.committed transaction) := by
  rw [committed_eq]
  refine .kept (fun id => ?_) rfl
  have hstaged := ((market.stagedBids_perm transaction).map Bid.id).count_eq id
  -- what leaves the staged bids is what the ledger gets
  simp only [ids, entityIds, stagedBids, close, values_writeItems, List.map_append,
    count_append] at hstaged ⊢
  omega

end FishMarket.Market
