import Mathlib.Algebra.BigOperators.Group.List.Lemmas
import Mathlib.Algebra.Order.BigOperators.Group.List
import Mathlib.Algebra.Ring.Int.Defs
import Mathlib.Data.List.Sort
import FishMarket.Proofs.Market.Consistency

/-! # What buyers owe

The bids of each buyer are summed up in one walk over the ledger, and the walk ends early if a sum
does not fit. All prices are positive, so a sum that fits in the end has fitted all along. This is
why the order of the bids does not matter, and why a sum that is too large before tax is too large
with tax as well.
-/

namespace FishMarket

open Text (minInt64 maxInt64)

/-! ## Sums of prices -/

namespace Bid

/-- The sum of the prices of a buyer's bids. -/
def sumOf (bids : List Bid) (buyer : Int) : Int :=
  ((bids.filter fun bid => bid.buyerId = buyer).map price).sum

variable {bids others : List Bid}

@[simp] theorem sumOf_nil (buyer : Int) : sumOf [] buyer = 0 := rfl

theorem sumOf_append (bids others : List Bid) (buyer : Int) :
    sumOf (bids ++ others) buyer = sumOf bids buyer + sumOf others buyer := by
  simp only [sumOf, List.filter_append, List.map_append, List.sum_append]

@[simp] theorem sumOf_singleton (bid : Bid) (buyer : Int) :
    sumOf [bid] buyer = if buyer = bid.buyerId then bid.price else 0 := by
  by_cases hbuyer : bid.buyerId = buyer
  · simp [sumOf, hbuyer]
  · simp [sumOf, hbuyer, Ne.symm hbuyer]

theorem sumOf_perm (hperm : bids.Perm others) (buyer : Int) :
    sumOf bids buyer = sumOf others buyer :=
  ((hperm.filter _).map price).sum_eq

theorem sumOf_nonneg (hprices : ∀ bid ∈ bids, 0 < bid.price) (buyer : Int) :
    0 ≤ sumOf bids buyer := by
  apply List.sum_nonneg
  intro amount hmem
  obtain ⟨bid, hbid, rfl⟩ := List.mem_map.mp hmem
  exact Int.le_of_lt (hprices bid (List.mem_of_mem_filter hbid))

theorem sumOf_eq_zero {buyer : Int} (hnone : buyer ∉ bids.map buyerId) : sumOf bids buyer = 0 := by
  have hempty : (bids.filter fun bid => bid.buyerId = buyer) = [] := by
    rw [List.filter_eq_nil_iff]
    intro bid hbid hbuyer
    exact hnone (List.mem_map.mpr ⟨bid, hbid, of_decide_eq_true hbuyer⟩)
  rw [sumOf, hempty]
  rfl

/-- The bids of all buyers together are all bids. -/
theorem sum_sumOf {buyers : List Int} (hnodup : buyers.Nodup)
    (hbuyers : ∀ bid ∈ bids, bid.buyerId ∈ buyers) :
    (buyers.map (sumOf bids)).sum = (bids.map price).sum := by
  induction bids with
  | nil =>
      have hnil : sumOf [] = fun _ => 0 := funext sumOf_nil
      simp [hnil]
  | cons bid rest ih =>
      obtain ⟨hbuyer, hrest⟩ := List.forall_mem_cons.mp hbuyers
      have hcons : sumOf (bid :: rest) = fun buyer => sumOf [bid] buyer + sumOf rest buyer :=
        funext (sumOf_append [bid] rest)
      have hsingle : (buyers.map (sumOf [bid])).sum = bid.price := by
        rw [List.sum_map_eq_nsmul_single bid.buyerId]
        · simp [List.count_eq_one_of_mem hnodup hbuyer]
        · intro other hother _
          simp [hother]
      rw [hcons, List.sum_map_add, hsingle, ih hrest, List.map_cons, List.sum_cons]

end Bid

namespace Market

open Bid (sumOf)

/-! ## Summing up a ledger -/

/-- Whether a table holds the sum of each buyer with a bid, and all sums fit. -/
structure Tallies (sums : Table Int) (bids : List Bid) : Prop where
  sum_eq : ∀ buyer, (sums.find? buyer).getD 0 = sumOf bids buyer
  contains_iff : ∀ buyer, sums.contains buyer = true ↔ ∃ bid ∈ bids, bid.buyerId = buyer
  fits : ∀ buyer, sumOf bids buyer ≤ maxInt64

namespace Tallies

variable {sums : Table Int} {bids : List Bid}

theorem empty : Tallies .empty [] where
  sum_eq _ := rfl
  contains_iff := by simp [Table.contains]
  fits _ := (by decide : (0 : Int) ≤ maxInt64)

/-- The next bid is added to the sum of its buyer. -/
theorem insert (htallies : Tallies sums bids) {bid : Bid}
    (hfits : sumOf (bids ++ [bid]) bid.buyerId ≤ maxInt64) :
    Tallies (sums.insert bid.buyerId (sumOf (bids ++ [bid]) bid.buyerId)) (bids ++ [bid]) where
  sum_eq buyer := by
    rw [Table.find?_insert]
    split
    next hsame => rw [Option.getD_some, hsame]
    next hother =>
      rw [htallies.sum_eq, Bid.sumOf_append, Bid.sumOf_singleton, if_neg hother, Int.add_zero]
  contains_iff buyer := by
    have hbefore := htallies.contains_iff buyer
    rw [Table.contains] at hbefore
    rw [Table.contains, Table.find?_insert]
    by_cases hsame : buyer = bid.buyerId
    · simp [hsame]
    · simp [hsame, hbefore, eq_comm, or_and_right, exists_or]
  fits buyer := by
    by_cases hsame : buyer = bid.buyerId
    · rwa [hsame]
    · rw [Bid.sumOf_append, Bid.sumOf_singleton, if_neg hsame, Int.add_zero]
      exact htallies.fits buyer

theorem mem_entries (htallies : Tallies sums bids) {buyer sum : Int} :
    (buyer, sum) ∈ sums.entries ↔
      (∃ bid ∈ bids, bid.buyerId = buyer) ∧ sum = sumOf bids buyer := by
  rw [← Table.find?_eq_some_iff, ← htallies.contains_iff, ← htallies.sum_eq, Table.contains]
  cases sums.find? buyer <;> simp [eq_comm]

end Tallies

/-- Either all bids are added, or the sum of a buyer does not fit. -/
theorem foldlM_addToSum {sums : Table Int} {bids rest : List Bid} (htallies : Tallies sums bids)
    (hprices : ∀ bid ∈ bids ++ rest, 0 < bid.price) :
    (∃ totals, rest.foldlM addToSum sums = .ok totals ∧ Tallies totals (bids ++ rest)) ∨
      ∃ buyer, rest.foldlM addToSum sums = .error (.internal (.totalTooLarge buyer)) ∧
        maxInt64 < sumOf (bids ++ rest) buyer := by
  induction rest generalizing sums bids with
  | nil => exact .inl ⟨sums, rfl, by rwa [List.append_nil]⟩
  | cons bid rest ih =>
      have hassoc : bids ++ bid :: rest = bids ++ [bid] ++ rest := by simp
      rw [hassoc] at hprices ⊢
      have hsum : (sums.find? bid.buyerId).getD 0 + bid.price =
          sumOf (bids ++ [bid]) bid.buyerId := by
        rw [htallies.sum_eq, Bid.sumOf_append, Bid.sumOf_singleton, if_pos rfl]
      have hnonneg : 0 ≤ sumOf (bids ++ [bid]) bid.buyerId :=
        Bid.sumOf_nonneg (fun other hmem => hprices other (List.mem_append_left _ hmem)) _
      have hmin : minInt64 ≤ sumOf (bids ++ [bid]) bid.buyerId :=
        Int.le_trans (by decide) hnonneg
      rw [List.foldlM_cons]
      by_cases hfits : sumOf (bids ++ [bid]) bid.buyerId ≤ maxInt64
      · have hadded : addToSum sums bid =
            .ok (sums.insert bid.buyerId (sumOf (bids ++ [bid]) bid.buyerId)) := by
          simp only [addToSum, hsum, hmin, hfits, and_self, if_true]
        rw [hadded]
        exact ih (htallies.insert hfits) hprices
      · have hrefused : addToSum sums bid = .error (.internal (.totalTooLarge bid.buyerId)) := by
          simp only [addToSum, hsum, hmin, hfits, and_false, if_false]
        refine .inr ⟨bid.buyerId, by rw [hrefused]; rfl, ?_⟩
        -- what comes later cannot bring a sum down again
        have hlater : 0 ≤ sumOf rest bid.buyerId :=
          Bid.sumOf_nonneg (fun other hmem => hprices other (List.mem_append_right _ hmem)) _
        rw [Bid.sumOf_append]
        omega

/-! ## The totals of the buyers -/

/-- Whether each bid in the ledger has a positive price and comes from a buyer on record. -/
structure Billable (market : Market) : Prop where
  prices : ∀ bid ∈ market.ledger, 0 < bid.price
  buyers : ∀ bid ∈ market.ledger, market.buyers.contains bid.buyerId = true

/-- The buyer of every bid has a name. -/
theorem Billable.exists_name {market : Market} (hbillable : market.Billable) {buyer : Int}
    (hbuyer : buyer ∈ market.ledger.map Bid.buyerId) :
    ∃ name, (market.buyers.find? buyer).map Buyer.name = some name := by
  obtain ⟨bid, hbid, rfl⟩ := List.mem_map.mp hbuyer
  obtain ⟨row, hrow⟩ := Table.contains_iff.mp (hbillable.buyers bid hbid)
  exact ⟨row.name, by rw [hrow, Option.map_some]⟩

/-- Whether a total is that of a buyer who has bid. -/
structure IsTotal (market : Market) (total : BuyerTotal) : Prop where
  bids : total.buyerId ∈ market.ledger.map Bid.buyerId
  sum : total.totalPrice = sumOf market.ledger total.buyerId
  name : (market.buyers.find? total.buyerId).map Buyer.name = some total.buyerName

variable {market : Market}

/-- The totals are those of the buyers who have bid, in the order of their ids, unless the sum of a
buyer does not fit. -/
theorem Billable.buyerTotals_cases (hbillable : market.Billable) :
    (∃ totals, market.buyerTotals = .ok totals ∧
      totals.Pairwise (fun total next => total.buyerId < next.buyerId) ∧
      (∀ total, total ∈ totals ↔ market.IsTotal total) ∧
      ∀ buyer, sumOf market.ledger buyer ≤ maxInt64) ∨
    ∃ buyer, market.buyerTotals = .error (.internal (.totalTooLarge buyer)) ∧
      maxInt64 < sumOf market.ledger buyer := by
  have hempty : ([] : List Bid) ++ market.ledger = market.ledger := List.nil_append _
  rcases foldlM_addToSum .empty (hempty ▸ hbillable.prices) with
    ⟨sums, heq, htallies⟩ | ⟨buyer, heq, hlarge⟩
  · rw [hempty] at htallies
    refine .inl ⟨_, by rw [buyerTotals, heq]; rfl, ?_, ?_, htallies.fits⟩
    · refine sums.ordered.filterMap _ fun entry next hless total htotal other hother => ?_
      obtain ⟨buyer, -, rfl⟩ := Option.map_eq_some_iff.mp htotal
      obtain ⟨buyer, -, rfl⟩ := Option.map_eq_some_iff.mp hother
      exact hless
    · intro total
      rw [List.mem_filterMap]
      constructor
      · rintro ⟨⟨id, sum⟩, hentry, htotal⟩
        obtain ⟨⟨bid, hbid, hid⟩, rfl⟩ := htallies.mem_entries.mp hentry
        obtain ⟨buyer, hbuyer, rfl⟩ := Option.map_eq_some_iff.mp htotal
        exact ⟨List.mem_map.mpr ⟨bid, hbid, hid⟩, rfl, by simp only [hbuyer, Option.map_some]⟩
      · rintro ⟨hbids, hsum, hname⟩
        obtain ⟨buyer, hbuyer, hname⟩ := Option.map_eq_some_iff.mp hname
        refine ⟨(total.buyerId, total.totalPrice), ?_, ?_⟩
        · exact htallies.mem_entries.mpr ⟨List.mem_map.mp hbids, hsum⟩
        · simp only [hbuyer, Option.map_some, hname]
  · rw [hempty] at hlarge
    refine .inr ⟨buyer, ?_, hlarge⟩
    rw [buyerTotals, heq]
    rfl

/-- No bid is left out of the totals. -/
theorem Billable.sum_buyerTotals (hbillable : market.Billable) {totals : List BuyerTotal}
    (htotals : market.buyerTotals = .ok totals) :
    (totals.map BuyerTotal.totalPrice).sum = (market.ledger.map Bid.price).sum := by
  rcases hbillable.buyerTotals_cases with ⟨totals', heq, hordered, hmem, -⟩ | ⟨buyer, heq, -⟩
  · obtain rfl := Except.ok.inj (htotals.symm.trans heq)
    have hsums : totals.map BuyerTotal.totalPrice =
        (totals.map BuyerTotal.buyerId).map (sumOf market.ledger) := by
      rw [List.map_map]
      exact List.map_congr_left fun total htotal => ((hmem total).mp htotal).sum
    have hnodup : (totals.map BuyerTotal.buyerId).Nodup :=
      List.pairwise_map.mpr (hordered.imp fun hless => Int.ne_of_lt hless)
    rw [hsums]
    refine Bid.sum_sumOf hnodup fun bid hbid => ?_
    have hbuyer : bid.buyerId ∈ market.ledger.map Bid.buyerId := List.mem_map_of_mem hbid
    obtain ⟨name, hname⟩ := hbillable.exists_name hbuyer
    let total : BuyerTotal := ⟨bid.buyerId, name, sumOf market.ledger bid.buyerId⟩
    exact List.mem_map.mpr ⟨total, (hmem total).mpr ⟨hbuyer, rfl, hname⟩, rfl⟩
  · cases htotals.symm.trans heq

end Market

end FishMarket
