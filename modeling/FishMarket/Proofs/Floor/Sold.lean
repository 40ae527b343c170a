import FishMarket.Proofs.Floor.Errands
import FishMarket.Proofs.Floor.Orderly

/-! # What is sold stays sold

Three paths lead to the status of an item: it is written by hand, where the market refuses to take
back a sale; it is written by a commit, which only ever records sales; and a new item may come with
any status, but it also comes with an id of its own. So an item that is sold once is sold until it
is deleted, and the item of a bid cannot be deleted.
-/

namespace FishMarket

namespace Market

variable {market after : Market} {named : Option TransactionId} {id : Int}

/-- Whether an id was given out, and there is no item under it that is not sold. -/
def Sealed (market : Market) (id : Int) : Prop :=
  id ≤ market.lastId ∧ ∀ item, market.items.find? id = some item → item.status = .sold

/-- The commit of a settlement marks the item of its bid as sold, and no other item. -/
theorem Fits.find?_committed {transaction : TransactionId} {bid : Bid}
    (hfits : market.Fits (.staged transaction bid)) (id : Int) :
    (market.committed transaction).items.find? id =
      if id = bid.itemId then
        (market.items.find? id).map fun item => { item with status := .sold }
      else market.items.find? id := by
  have hitems : (market.committed transaction).items =
      market.items.modify bid.itemId fun item => { item with status := .sold } :=
    congrArg Entities.items hfits.entities_committed
  rw [hitems, Table.find?_modify]

namespace Sealed

/-- No change takes back a sale, or puts another item in the place of one. -/
theorem change (hsealed : market.Sealed id) (hchange : Change market named after) :
    after.Sealed id := by
  obtain ⟨hle, hsold⟩ := hsealed
  have hnext : id ≤ market.nextId := Int.le_trans hle (Int.le_add_one (Int.le_refl _))
  cases hchange with
  | nothing | refusalSet | venueGivenUp | auctionWritten | begun | statusStaged | closed =>
      exact ⟨hle, hsold⟩
  | venueAdded | auctionAdded | buyerAdded | fishermanAdded | idTaken | bidStaged =>
      exact ⟨hnext, hsold⟩
  | auctionDeleted auction =>
      refine ⟨hle, fun item hitem => ?_⟩
      rw [Table.find?_filter] at hitem
      exact hsold item (Option.filter_eq_some_iff.mp hitem).1
  | itemAdded new hid =>
      refine ⟨hnext, fun item hitem => ?_⟩
      rw [Table.find?_insert, hid, if_neg] at hitem
      · exact hsold item hitem
      · -- the new item has the next id, which was not given out before
        rintro rfl
        exact absurd hle (Int.not_le.mpr (Int.lt_succ _))
  | itemWritten other item status hfound hallowed =>
      refine ⟨hle, fun row hrow => ?_⟩
      rw [Table.find?_modify] at hrow
      split at hrow
      next hsame =>
        rw [hsame, hfound] at hrow
        obtain rfl := Option.some.inj hrow
        -- from sold, the market allows no other status
        have hstatus := hsold item (hsame ▸ hfound)
        simpa [ItemStatus.allows, hstatus] using hallowed
      next => exact hsold row hrow

/-- The commit of a settlement takes back no sale. -/
theorem settled (hsealed : market.Sealed id) {transaction : TransactionId} {bid : Bid}
    (hfits : market.Fits (.staged transaction bid)) :
    (market.committed transaction).Sealed id := by
  obtain ⟨hle, hsold⟩ := hsealed
  refine ⟨market.committed_lastId transaction ▸ hle, fun item hitem => ?_⟩
  rw [hfits.find?_committed] at hitem
  split at hitem
  next =>
    obtain ⟨before, -, rfl⟩ := Option.map_eq_some_iff.mp hitem
    rfl
  next => exact hsold item hitem

/-- No move on the floor takes back a sale. -/
theorem traded (hsealed : market.Sealed id) (htraded : market.Traded after) :
    after.Sealed id := by
  cases htraded with
  | changed hchange => exact hsealed.change hchange
  | settled transaction bid hfits => exact hsealed.settled hfits
  | abandoned transactions =>
      rw [market.foldl_close_eq]
      exact hsealed

end Sealed

/-- The item of a bid is sold in the moment in which the bid is recorded. -/
theorem Fits.sealed_committed {transaction : TransactionId} {bid : Bid}
    (hfits : market.Fits (.staged transaction bid)) (hconsistent : market.Consistent)
    (hready : market.Committable transaction) :
    (market.committed transaction).Sealed bid.itemId := by
  obtain ⟨item, hitem⟩ := Table.contains_iff.mp (hfits.contains hready)
  refine ⟨market.committed_lastId transaction ▸ hconsistent.item_le_lastId hitem, ?_⟩
  intro after hafter
  rw [hfits.find?_committed, if_pos rfl] at hafter
  obtain ⟨before, -, rfl⟩ := Option.map_eq_some_iff.mp hafter
  rfl

/-- Whether the items of all bids in the ledger are sold. -/
def BidsSealed (market : Market) : Prop :=
  ∀ bid ∈ market.ledger, market.Sealed bid.itemId

theorem BidsSealed.traded (hbids : market.BidsSealed) (hconsistent : market.Consistent)
    (htraded : market.Traded after) : after.BidsSealed := by
  intro bid hmem
  have hold (hbefore : bid ∈ market.ledger) : after.Sealed bid.itemId :=
    (hbids bid hbefore).traded htraded
  cases htraded with
  | changed hchange => exact hold (hchange.ledger_eq ▸ hmem)
  | settled transaction settled hfits hready =>
      rw [hfits.ledger_committed] at hmem
      rcases List.mem_append.mp hmem with hbefore | hnew
      · exact hold hbefore
      · obtain rfl := List.mem_singleton.mp hnew
        exact hfits.sealed_committed hconsistent hready
  | abandoned transactions =>
      rw [market.foldl_close_eq] at hmem
      exact hold hmem

end Market

/-- Whatever is run at the service, requests included, and in whatever order the calls are made:
the item of every bid in the ledger is on record and sold; and an item that is sold at some moment
is sold at every later moment at which it is still on record. -/
theorem Floor.sold_is_absorbing (moves later : List (Move Business)) :
    let floor := (Floor.initial : Floor Business).play moves
    (∀ bid ∈ floor.market.ledger, ∃ item,
      floor.market.items.find? bid.itemId = some item ∧ item.status = .sold) ∧
    ∀ id item, floor.market.items.find? id = some item → item.status = .sold →
      ∀ item', (floor.play later).market.items.find? id = some item' → item'.status = .sold := by
  intro floor
  have horderly : Orderly floor.service floor.tasks := Orderly.initial.play moves
  refine ⟨fun bid hbid => ?_, fun id item hitem hsold item' hitem' => ?_⟩
  · have hnone : (Floor.initial : Floor Business).market.BidsSealed :=
      fun bid hmem => absurd hmem List.not_mem_nil
    have hbids : floor.market.BidsSealed :=
      Orderly.initial.play_preserves _ hnone (fun hbefore => hbefore.traded) moves
    have hpresent := horderly.consistent.linked.item_of_bid bid hbid
    obtain ⟨item, hitem⟩ := Table.contains_iff.mp hpresent
    exact ⟨item, hitem, (hbids bid hbid).2 item hitem⟩
  · have hsealed : floor.market.Sealed id := by
      refine ⟨horderly.consistent.item_le_lastId hitem, fun row hrow => ?_⟩
      obtain rfl := Option.some.inj (hitem.symm.trans hrow)
      exact hsold
    have hsealed' : (floor.play later).market.Sealed id :=
      horderly.play_preserves (Market.Sealed · id) hsealed (fun hbefore _ => hbefore.traded) later
    exact hsealed'.2 item' hitem'

end FishMarket
