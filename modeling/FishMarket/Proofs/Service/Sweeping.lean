import FishMarket.Proofs.Market.Consistency
import FishMarket.Proofs.Market.Deadlines
import FishMarket.Proofs.Service.Weather
import FishMarket.Query

/-! # Sweeps

The sweep goes through the auctions that have not ended, in the order of their ids, and the list of
all auctions through all of them, the latest first. Both write to the table while they go through a
list that was taken before. If nobody else comes in between, both do the same: every row that is
overdue is completed, as if all rows were changed at once.
-/

namespace FishMarket

open Calendar

/-! ## What a sweep does to rows -/

namespace Auction

variable {auction : Auction} {now : Instant}

/-- The row of an auction after a sweep. -/
def sweptAt (auction : Auction) (now : Instant) : Auction :=
  if auction.isOverdue now then { auction with status := .completed, updatedAt := now }
  else auction

theorem completed_of_overdue (hoverdue : auction.isOverdue now = true) :
    auction.completed now = auction.sweptAt now := by
  have hopen := (isOverdue_iff.mp hoverdue).1
  simp [completed, sweptAt, hopen, hoverdue]

theorem sweptAt_of_current (hcurrent : auction.isOverdue now = false) :
    auction.sweptAt now = auction := by
  simp [sweptAt, hcurrent]

/-- A sweep changes just the rows that are overdue. -/
theorem sweptAt_ne_iff : auction.sweptAt now ≠ auction ↔ auction.isOverdue now = true := by
  cases hoverdue : auction.isOverdue now with
  | false => simp [sweptAt_of_current hoverdue]
  | true =>
      have hopen := (isOverdue_iff.mp hoverdue).1
      refine ⟨fun _ => rfl, fun _ hsame => ?_⟩
      rw [← hsame, ← completed_of_overdue hoverdue, isTerminal_completed] at hopen
      cases hopen

/-- After a sweep nothing is overdue, by the clock of the sweep or an earlier one. -/
theorem isOverdue_sweptAt {earlier : Instant} (hle : earlier ≤ now) :
    (auction.sweptAt now).isOverdue earlier = false := by
  cases hoverdue : auction.isOverdue now with
  | true =>
      rw [← completed_of_overdue hoverdue]
      exact isOverdue_of_ended (auction.isTerminal_completed now)
  | false =>
      rw [sweptAt_of_current hoverdue, Bool.eq_false_iff]
      intro hearlier
      cases hoverdue.symm.trans (isOverdue_mono hle hearlier)

theorem id_sweptAt (auction : Auction) (now : Instant) : (auction.sweptAt now).id = auction.id := by
  unfold sweptAt
  split <;> rfl

theorem date_sweptAt (auction : Auction) (now : Instant) :
    (auction.sweptAt now).date = auction.date := by
  unfold sweptAt
  split <;> rfl

end Auction

namespace Market

variable {market : Market} {now : Instant}

/-- The market in which every auction that is overdue is completed, and nothing else is changed. -/
def sweptAt (market : Market) (now : Instant) : Market :=
  { market with auctions := market.auctions.map fun auction => auction.sweptAt now }

theorem sweptAt_of_current
    (hcurrent : ∀ auction ∈ market.auctions.values, auction.isOverdue now = false) :
    market.sweptAt now = market := by
  unfold sweptAt
  rw [Table.map_eq_self fun auction hmem => Auction.sweptAt_of_current (hcurrent auction hmem)]

theorem isOverdue_of_swept {earlier : Instant} (hle : earlier ≤ now) {auction : Auction}
    (hmem : auction ∈ (market.sweptAt now).auctions.values) : auction.isOverdue earlier = false := by
  rw [sweptAt, Table.values_map] at hmem
  obtain ⟨row, -, rfl⟩ := List.mem_map.mp hmem
  exact Auction.isOverdue_sweptAt hle

/-- A sweep does not change the order in which auctions are listed. -/
theorem listAuctions_sweptAt (market : Market) (now : Instant) :
    (market.sweptAt now).listAuctions =
      market.listAuctions.map fun auction => auction.sweptAt now := by
  unfold listAuctions
  rw [sweptAt, Table.values_map]
  refine (List.map_mergeSort fun a _ b _ => ?_).symm
  simp only [auctionPrecedes, Auction.id_sweptAt, Auction.date_sweptAt]

/-! ## Row after row -/

/-- The auctions after those under some ids were completed, one after the other. -/
def completeEach (now : Instant) (auctions : Table Auction) (ids : List Int) : Table Auction :=
  ids.foldl (fun table id => table.modify id fun auction => auction.completed now) auctions

theorem find?_completeEach (auctions : Table Auction) (ids : List Int) (id : Int) :
    (completeEach now auctions ids).find? id =
      (auctions.find? id).map fun auction =>
        if id ∈ ids then auction.completed now else auction := by
  induction ids generalizing auctions with
  | nil => simp [completeEach]
  | cons first rest ih =>
      have hrest := ih (auctions.modify first fun auction => auction.completed now)
      rw [completeEach, List.foldl_cons]
      refine hrest.trans ?_
      rw [Table.find?_modify]
      by_cases hsame : id = first
      · -- one that comes once more is not changed again
        subst hsame
        simp [Function.comp_def, Auction.completed_completed]
      · simp [hsame]

/-- Which auctions are overdue, of a list of rows. -/
def overdueIds (now : Instant) (rows : List Auction) : List Int :=
  (rows.filter fun auction => auction.isOverdue now).map Auction.id

theorem overdueIds_cons (now : Instant) (auction : Auction) (rest : List Auction) :
    overdueIds now (auction :: rest) = overdueIds now [auction] ++ overdueIds now rest := by
  unfold overdueIds
  rw [← List.map_append, ← List.filter_append]
  rfl

theorem completeEach_append (now : Instant) (auctions : Table Auction) (ids later : List Int) :
    completeEach now auctions (ids ++ later) =
      completeEach now (completeEach now auctions ids) later :=
  List.foldl_append

/-- Completing all that are overdue one after the other is a change of all rows at once. -/
theorem completeEach_overdue {auctions : Table Auction} (hkeyed : auctions.Keyed Auction.id)
    {rows : List Auction}
    (hrows : ∀ row, row.isOverdue now = true → (row ∈ rows ↔ row ∈ auctions.values)) :
    completeEach now auctions (overdueIds now rows) =
      auctions.map fun auction => auction.sweptAt now := by
  apply Table.ext_find?
  intro id
  rw [find?_completeEach, Table.find?_map]
  cases hfound : auctions.find? id with
  | none => rfl
  | some auction =>
      have hlisted : id ∈ overdueIds now rows ↔ auction.isOverdue now = true := by
        unfold overdueIds
        constructor
        · intro hmem
          obtain ⟨row, hrow, hid⟩ := List.mem_map.mp hmem
          obtain ⟨hmem, hoverdue⟩ := List.mem_filter.mp hrow
          obtain ⟨key, hstored⟩ := Table.mem_values_iff.mp ((hrows row hoverdue).mp hmem)
          obtain rfl : key = id := (hkeyed key row hstored).symm.trans hid
          exact Option.some.inj (hfound.symm.trans hstored) ▸ hoverdue
        · intro hoverdue
          have hmem := (hrows auction hoverdue).mpr (Table.mem_values_iff.mpr ⟨id, hfound⟩)
          refine List.mem_map.mpr ⟨auction, List.mem_filter.mpr ⟨hmem, hoverdue⟩, ?_⟩
          exact hkeyed id auction hfound
      refine congrArg some ?_
      split
      next hmem => exact Auction.completed_of_overdue (hlisted.mp hmem)
      next hmem =>
        exact (Auction.sweptAt_of_current
          ((Bool.not_eq_true _).mp fun hoverdue => hmem (hlisted.mpr hoverdue))).symm

end Market

/-! ## What the loops do -/

namespace Service

variable {now : Instant}

/-- The service with other auctions. -/
def withAuctions (service : Service) (auctions : Table Auction) : Service :=
  { service with market := { service.market with auctions := auctions } }

theorem perform_completeAuction (service : Service) (id : Int) (now : Instant) :
    service.perform (Action.store (.completeAuction id now)) =
      (.ok ((service.market.auctions.find? id).map fun auction => auction.completed now),
        service.withAuctions
          (service.market.auctions.modify id fun auction => auction.completed now)) := by
  change ((.ok (service.market.completeAuction id now).1, _) : Except Failure _ × Service) = _
  rw [Market.completeAuction_eq]
  rfl

/-- The sweep completes what is overdue of the rows that it was given. -/
theorem perform_completeOverdue (service : Service) (now : Instant) (rows : List Auction) :
    service.perform (Query.completeOverdue now rows) =
      (.ok (rows.countP fun auction => auction.isOverdue now),
        service.withAuctions
          (Market.completeEach now service.market.auctions (Market.overdueIds now rows))) := by
  induction rows generalizing service with
  | nil => rfl
  | cons auction rest ih =>
      unfold Query.completeOverdue
      cases hoverdue : auction.isOverdue now with
      | false =>
          rw [if_neg Bool.false_ne_true, ih]
          simp [Market.overdueIds, hoverdue]
      | true =>
          have hfirst := service.perform_completeAuction auction.id now
          unfold perform at hfirst ih ⊢
          rw [if_pos rfl, Action.run_bind, hfirst]
          dsimp only
          rw [Action.run_bind, ih]
          simp only [Market.overdueIds, List.filter_cons, List.countP_cons, hoverdue, if_true]
          rfl

/-- A row that was listed and is overdue is found, and it is returned as it is after the sweep. -/
theorem perform_reconcile (service : Service) {auction : Auction}
    (hstored : auction.isOverdue now = true →
      (service.market.auctions.find? auction.id).map (fun row => row.completed now) =
        some (auction.completed now)) :
    service.perform (Query.reconcile auction now) =
      (.ok (auction.sweptAt now), service.withAuctions
        (Market.completeEach now service.market.auctions (Market.overdueIds now [auction]))) := by
  unfold Query.reconcile
  cases hoverdue : auction.isOverdue now with
  | false =>
      rw [if_neg Bool.false_ne_true, Auction.sweptAt_of_current hoverdue]
      simp only [Market.overdueIds, List.filter_cons, hoverdue]
      rfl
  | true =>
      have hfirst := service.perform_completeAuction auction.id now
      unfold perform at hfirst ⊢
      rw [if_pos rfl, Action.run_found, hfirst, hstored hoverdue,
        Auction.completed_of_overdue hoverdue]
      simp only [Market.overdueIds, List.filter_cons, hoverdue]
      rfl

/-- Going through listed rows returns each of them as it is after the sweep. -/
theorem perform_reconcileEach (service : Service) (now : Instant) (rows : List Auction)
    (hstored : ∀ auction ∈ rows, auction.isOverdue now = true →
      (service.market.auctions.find? auction.id).map (fun row => row.completed now) =
        some (auction.completed now)) :
    service.perform (rows.mapM fun auction => Query.reconcile auction now) =
      (.ok (rows.map fun auction => auction.sweptAt now), service.withAuctions
        (Market.completeEach now service.market.auctions (Market.overdueIds now rows))) := by
  induction rows generalizing service with
  | nil => rfl
  | cons auction rest ih =>
      obtain ⟨hauction, hrest⟩ := List.forall_mem_cons.mp hstored
      have hfirst := service.perform_reconcile hauction
      -- what was completed already is left as it is by another completion
      have hlater := ih (service.withAuctions
        (Market.completeEach now service.market.auctions (Market.overdueIds now [auction])))
        fun row hmem hoverdue => by
          rw [← hrest row hmem hoverdue, withAuctions, Market.find?_completeEach, Option.map_map]
          congr 1
          funext stored
          simp only [Function.comp_apply]
          split
          next => exact stored.completed_completed now now
          next => rfl
      unfold perform at hfirst hlater ⊢
      rw [List.mapM_cons, Action.run_bind, hfirst]
      dsimp only
      rw [Action.run_bind, hlater, Market.overdueIds_cons now auction rest,
        Market.completeEach_append]
      rfl

variable {service : Service} (hkeyed : service.market.auctions.Keyed Auction.id)

include hkeyed

/-- A sweep over the auctions that have not ended. -/
theorem perform_reconcileAll (now : Instant) :
    service.perform (Query.reconcileAll now) =
      (.ok (service.market.auctions.values.countP fun auction => auction.isOverdue now),
        { service with market := service.market.sweptAt now }) := by
  have hopen (row : Auction) (hoverdue : row.isOverdue now = true) :
      row ∈ service.market.listOpenAuctions ↔ row ∈ service.market.auctions.values := by
    have hopen := (Auction.isOverdue_iff.mp hoverdue).1
    simp [Market.listOpenAuctions, hopen]
  have hcount : (service.market.listOpenAuctions.countP fun auction => auction.isOverdue now) =
      service.market.auctions.values.countP fun auction => auction.isOverdue now := by
    unfold Market.listOpenAuctions
    rw [List.countP_filter]
    refine List.countP_congr fun auction _ => ?_
    rw [Bool.and_eq_true, and_iff_left_iff_imp]
    intro hoverdue
    rw [(Auction.isOverdue_iff.mp hoverdue).1]
    rfl
  have hloop := service.perform_completeOverdue now service.market.listOpenAuctions
  rw [hcount, Market.completeEach_overdue hkeyed hopen] at hloop
  exact hloop

/-- A list of all auctions, each completed first if it is overdue. -/
theorem perform_getAllAuctions (now : Instant) :
    service.perform (Query.getAllAuctions now) =
      (.ok (service.market.sweptAt now).listAuctions,
        { service with market := service.market.sweptAt now }) := by
  have hlisted (row : Auction) :
      row ∈ service.market.listAuctions ↔ row ∈ service.market.auctions.values :=
    List.mem_mergeSort
  have hloop := service.perform_reconcileEach now service.market.listAuctions
    fun row hmem _ => by
      obtain ⟨key, hfound⟩ := Table.mem_values_iff.mp ((hlisted row).mp hmem)
      rw [hkeyed key row hfound, hfound, Option.map_some]
  rw [Market.completeEach_overdue hkeyed fun row _ => hlisted row,
    ← Market.listAuctions_sweptAt] at hloop
  exact hloop

end Service

/-- Nobody comes in between: a sweep over all auctions and a list of all auctions leave the same
market, in which all that were overdue are completed at the time of the sweep and nothing else is
changed. The sweep counts the rows that have changed, and the list shows the market as it is then.
By the same clock or an earlier one nothing is overdue any more, so that to do either once more
changes nothing. -/
theorem Market.sweeps_agree (steps : List Market.Step) (cache : MemoryCache) (moment : Nat)
    (now : Instant) :
    let market := Market.initial.takeAll steps
    let swept : Service := ⟨market.sweptAt now, cache, moment⟩
    (∀ id, swept.market.auctions.find? id = (market.auctions.find? id).map fun auction =>
      if auction.isOverdue now then { auction with status := .completed, updatedAt := now }
      else auction) ∧
    swept.market = { market with auctions := swept.market.auctions } ∧
    Service.perform ⟨market, cache, moment⟩ (Query.reconcileAll now) =
      (.ok (market.auctions.values.countP fun auction => auction.sweptAt now ≠ auction), swept) ∧
    Service.perform ⟨market, cache, moment⟩ (Query.getAllAuctions now) =
      (.ok swept.market.listAuctions, swept) ∧
    ∀ earlier, earlier ≤ now →
      (∀ auction ∈ swept.market.auctions.values, auction.isOverdue earlier = false) ∧
      swept.perform (Query.reconcileAll earlier) = (.ok 0, swept) ∧
      swept.perform (Query.getAllAuctions earlier) = (.ok swept.market.listAuctions, swept) := by
  intro market swept
  let service : Service := ⟨market, cache, moment⟩
  have hkeyed : service.market.auctions.Keyed Auction.id :=
    (Consistent.initial.takeAll steps).filed.auctions
  have hswept : swept.market.auctions.Keyed Auction.id :=
    hkeyed.map fun auction => auction.id_sweptAt now
  have hcount : (market.auctions.values.countP fun auction => auction.sweptAt now ≠ auction) =
      market.auctions.values.countP fun auction => auction.isOverdue now :=
    List.countP_congr fun auction _ => by simp [Auction.sweptAt_ne_iff]
  refine ⟨fun id => Table.find?_map _ _ id, rfl, ?_, ?_, fun earlier hle => ?_⟩
  · rw [hcount]
    exact Service.perform_reconcileAll hkeyed now
  · exact Service.perform_getAllAuctions hkeyed now
  · have hcurrent : ∀ auction ∈ swept.market.auctions.values, auction.isOverdue earlier = false :=
      fun auction => isOverdue_of_swept hle
    have hsame : swept.market.sweptAt earlier = swept.market := sweptAt_of_current hcurrent
    have hnone : (swept.market.auctions.values.countP fun auction => auction.isOverdue earlier) = 0 :=
      List.countP_eq_zero.mpr fun auction hmem => by simp [hcurrent auction hmem]
    refine ⟨hcurrent, ?_, ?_⟩
    · rw [Service.perform_reconcileAll hswept, hnone, hsame]
    · rw [Service.perform_getAllAuctions hswept, hsame]

end FishMarket
