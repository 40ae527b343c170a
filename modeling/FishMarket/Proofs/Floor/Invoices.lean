import FishMarket.Proofs.Floor.Moments
import FishMarket.Proofs.Http.Errands
import FishMarket.Proofs.Market.Totals

/-! # Invoices

Whoever places a bid names a positive price, and so does every bid in the ledger. On these terms the
two checks of the amounts, that of a sum before tax and that of the amount with tax, come down to
one: the list of invoices is refused if what a buyer owes with tax does not fit.
-/

namespace FishMarket

open Calendar
open Routine (Asks)
open Text (minInt64 maxInt64)

/-! ## Positive prices -/

/-- Whether a call stages no bid without a positive price. -/
def ServiceCall.IsPriced : ServiceCall → Prop
  | .store (.insertBidIn _ place _) => 0 < place.price
  | _ => True

theorem ServiceCall.IsPlain.isPriced {call : ServiceCall} (hplain : call.IsPlain) :
    call.IsPriced := by
  cases call with
  | cache call => exact trivial
  | store call =>
      cases call with
      | insertBidIn => cases hplain.2
      | _ => exact trivial

theorem PlaceBid.price_pos {place : PlaceBid} (hvalid : place.validate = .ok ()) :
    0 < place.price := by
  unfold validate at hvalid
  split at hvalid
  next => cases hvalid
  next =>
    split at hvalid
    next => cases hvalid
    next =>
      split at hvalid
      next => cases hvalid
      next hprice => exact Int.not_le.mp hprice

theorem Command.placeBid_priced (place : PlaceBid) (now : Instant) :
    (placeBid place now).run.Asks ServiceCall.IsPriced := by
  cases hvalid : place.validate with
  | error failure =>
      unfold placeBid
      rw [hvalid]
      exact trivial
  | ok =>
      refine (placeBid_fulfils place now).asks fun phase call hplaces => ?_
      cases hplaces with
      | stage => exact PlaceBid.price_pos hvalid
      | begin | mark | commit | rollback | forget => exact trivial

theorem Errand.routine_priced (errand : Errand) :
    errand.routine.Asks ServiceCall.IsPriced := by
  by_cases herrand : ∃ place now, errand = .placeBid place now
  · obtain ⟨place, now, rfl⟩ := herrand
    exact Command.placeBid_priced place now
  · refine (routine_plain fun place now heq => herrand ⟨place, now, heq⟩).mono ?_
    exact fun _ => ServiceCall.IsPlain.isPriced

theorem Business.routine_priced (business : Business) :
    (Trade.routine business).Asks ServiceCall.IsPriced := by
  cases business with
  | errand work => exact work.routine_priced
  | request ttl now received =>
      apply Http.respond_of_errands Asks.pure Asks.bind
      exact fun errand _ _ => errand.routine_priced

/-- A bid that is staged has the price that was asked for. -/
theorem Act.price_pos {act : Act} (hpriced : act.call.IsPriced) {bid : Bid}
    (hstaged : act.staged? = some bid) : 0 < bid.price := by
  obtain ⟨call, reception, before⟩ := act
  cases call with
  | cache call => cases hstaged
  | store call =>
      cases call with
      | insertBidIn transaction place now =>
          have hrecords := Settlement.Places.records (.stage transaction) hstaged
          exact hrecords.price ▸ hpriced
      | _ => cases hstaged

/-- The ledger can be billed at all times. -/
theorem Floor.billable (moves : List (Move Business)) :
    (initial.play moves : Floor Business).market.Billable := by
  let floor := (initial : Floor Business).play moves
  have horderly : Orderly floor.service floor.tasks := Orderly.initial.play moves
  refine ⟨fun bid hbid => ?_, horderly.consistent.linked.buyer_of_bid⟩
  obtain ⟨task, htask, hsettled⟩ := List.mem_filterMap.mp (horderly.recorded.mem_iff.mp hbid)
  have hstaged := List.mem_of_getLast? (Course.staged?_of_settled hsettled)
  obtain ⟨act, hact, hstaged⟩ := List.mem_filterMap.mp hstaged
  have hpriced := (asks_of_asks moves task htask task.errand.routine_priced).2 act hact
  exact act.price_pos hpriced hstaged

/-! ## Charging -/

/-- What a buyer is charged for a total, if that fits. -/
def BuyerTotal.line (total : BuyerTotal) : InvoiceLine where
  buyerId := total.buyerId
  buyerName := total.buyerName
  totalAmount := 108 * total.totalPrice / 100

namespace InvoiceLine

variable {total : BuyerTotal} {totals : List BuyerTotal}

theorem ofTotal_eq (hnonneg : 0 ≤ total.totalPrice) :
    ofTotal total = if total.line.totalAmount ≤ maxInt64 then .ok total.line
      else .error (.internal (.taxedTooLarge total.totalPrice)) := by
  have htaxed : (total.totalPrice * (100 + taxRatePercent)).fdiv 100 = total.line.totalAmount := by
    rw [Int.fdiv_eq_ediv_of_nonneg _ (by decide), Int.mul_comm]
    rfl
  have hmin : minInt64 ≤ total.line.totalAmount := by
    simp only [BuyerTotal.line, minInt64]
    omega
  unfold ofTotal withTax
  simp only [htaxed, hmin, true_and]
  split <;> rfl

example : ofTotal ⟨7, "", 999⟩ = .ok ⟨7, "", 1078⟩ := by decide

/-- Either all buyers are charged, or the amount of one does not fit. -/
theorem mapM_ofTotal (hnonneg : ∀ total ∈ totals, 0 ≤ total.totalPrice) :
    totals.mapM ofTotal = .ok (totals.map BuyerTotal.line) ∧
      (∀ total ∈ totals, total.line.totalAmount ≤ maxInt64) ∨
    ∃ total ∈ totals, maxInt64 < total.line.totalAmount ∧
      totals.mapM ofTotal = .error (.internal (.taxedTooLarge total.totalPrice)) := by
  induction totals with
  | nil => exact .inl ⟨rfl, nofun⟩
  | cons total rest ih =>
      obtain ⟨htotal, hrest⟩ := List.forall_mem_cons.mp hnonneg
      rw [List.mapM_cons, ofTotal_eq htotal]
      by_cases hfits : total.line.totalAmount ≤ maxInt64
      · rw [if_pos hfits]
        rcases ih hrest with ⟨heq, hothers⟩ | ⟨other, hmem, hlarge, heq⟩
        · exact .inl ⟨by rw [heq]; rfl, List.forall_mem_cons.mpr ⟨hfits, hothers⟩⟩
        · exact .inr ⟨other, List.mem_cons_of_mem _ hmem, hlarge, by rw [heq]; rfl⟩
      · rw [if_neg hfits]
        exact .inr ⟨total, List.mem_cons_self, Int.not_le.mp hfits, rfl⟩

/-- Lines in order are known by which they are. -/
theorem eq_of_mem_iff {lines others : List InvoiceLine}
    (hlines : lines.Pairwise fun line next => line.buyerId < next.buyerId)
    (hothers : others.Pairwise fun line next => line.buyerId < next.buyerId)
    (hmem : ∀ line, line ∈ lines ↔ line ∈ others) : lines = others := by
  have hirrefl : Std.Irrefl fun line next : InvoiceLine => line.buyerId < next.buyerId :=
    ⟨fun line => Int.lt_irrefl line.buyerId⟩
  have hantisymm : Std.Antisymm fun line next : InvoiceLine => line.buyerId < next.buyerId :=
    ⟨fun line next hless hgreater => absurd hgreater (Int.lt_asymm hless)⟩
  exact hlines.eq_of_mem_iff hothers hmem

end InvoiceLine

namespace Market

open Bid (sumOf)

/-- What a buyer owes: the sum of all bids of the buyer, with tax and rounded down. -/
def amountDue (market : Market) (buyer : Int) : Int :=
  108 * sumOf market.ledger buyer / 100

/-- The list of invoices, or why there is none. -/
def invoices (market : Market) : Except Failure (List InvoiceLine) := do
  let totals ← market.buyerTotals
  totals.mapM InvoiceLine.ofTotal

/-- Whether a line is that of a buyer who has bid. -/
structure IsLine (market : Market) (line : InvoiceLine) : Prop where
  bids : line.buyerId ∈ market.ledger.map Bid.buyerId
  amount : line.totalAmount = market.amountDue line.buyerId
  name : (market.buyers.find? line.buyerId).map Buyer.name = some line.buyerName

variable {market other : Market}

theorem isLine_iff {line : InvoiceLine} :
    market.IsLine line ↔ ∃ total, market.IsTotal total ∧ total.line = line := by
  constructor
  · rintro ⟨hbids, hamount, hname⟩
    obtain ⟨id, name, amount⟩ := line
    refine ⟨⟨id, name, sumOf market.ledger id⟩, ⟨hbids, rfl, hname⟩, ?_⟩
    exact congrArg _ hamount.symm
  · rintro ⟨total, htotal, rfl⟩
    refine ⟨htotal.bids, ?_, htotal.name⟩
    change 108 * total.totalPrice / 100 = 108 * sumOf market.ledger total.buyerId / 100
    rw [htotal.sum]

/-- There is a line for each buyer who has bid, in the order of their ids, unless what a buyer owes
does not fit. -/
theorem Billable.invoices_cases (hbillable : market.Billable) :
    (∃ lines, market.invoices = .ok lines ∧
      lines.Pairwise (fun line next => line.buyerId < next.buyerId) ∧
      (∀ line, line ∈ lines ↔ market.IsLine line) ∧
      ∀ buyer, market.amountDue buyer ≤ maxInt64) ∨
    ∃ breakdown, market.invoices = .error (.internal breakdown) ∧
      ∃ buyer, maxInt64 < market.amountDue buyer := by
  rcases hbillable.buyerTotals_cases with
    ⟨totals, heq, hordered, hmem, hfits⟩ | ⟨buyer, heq, hlarge⟩
  · have hnonneg : ∀ total ∈ totals, 0 ≤ total.totalPrice := by
      intro total htotal
      rw [((hmem total).mp htotal).sum]
      exact Bid.sumOf_nonneg hbillable.prices total.buyerId
    rcases InvoiceLine.mapM_ofTotal hnonneg with ⟨hlines, hdue⟩ | ⟨total, htotal, hlarge, hlines⟩
    · refine .inl ⟨totals.map BuyerTotal.line, ?_, ?_, ?_, ?_⟩
      · rw [invoices, heq]
        exact hlines
      · exact List.pairwise_map.mpr hordered
      · intro line
        rw [List.mem_map, isLine_iff]
        simp only [hmem]
      · intro buyer
        by_cases hbuyer : buyer ∈ market.ledger.map Bid.buyerId
        · obtain ⟨name, hname⟩ := hbillable.exists_name hbuyer
          obtain ⟨total, htotal, hline⟩ := isLine_iff.mp
            (⟨hbuyer, rfl, hname⟩ : market.IsLine ⟨buyer, name, market.amountDue buyer⟩)
          have hamount := hdue total ((hmem total).mpr htotal)
          rwa [hline] at hamount
        · rw [amountDue, Bid.sumOf_eq_zero hbuyer]
          decide
    · refine .inr ⟨.taxedTooLarge total.totalPrice, ?_, total.buyerId, ?_⟩
      · rw [invoices, heq]
        exact hlines
      · have hline := isLine_iff.mpr ⟨total, (hmem total).mp htotal, rfl⟩
        exact hline.amount ▸ hlarge
  · refine .inr ⟨.totalTooLarge buyer, by rw [invoices, heq]; rfl, buyer, ?_⟩
    simp only [amountDue, maxInt64] at hlarge ⊢
    omega

theorem Billable.invoices_internal (hbillable : market.Billable) {failure : Failure}
    (hfailed : market.invoices = .error failure) : failure.kind = .internal := by
  rcases hbillable.invoices_cases with ⟨lines, heq, -⟩ | ⟨breakdown, heq, -⟩
  · cases heq.symm.trans hfailed
  · obtain rfl := Except.error.inj (heq.symm.trans hfailed)
    rfl

variable (hperm : other.ledger.Perm market.ledger) (hbuyers : other.buyers = market.buyers)

include hperm

theorem amountDue_perm (buyer : Int) : other.amountDue buyer = market.amountDue buyer := by
  rw [amountDue, Bid.sumOf_perm hperm, amountDue]

include hbuyers

theorem isLine_perm {line : InvoiceLine} : other.IsLine line ↔ market.IsLine line := by
  have hids : line.buyerId ∈ other.ledger.map Bid.buyerId ↔
      line.buyerId ∈ market.ledger.map Bid.buyerId := (hperm.map Bid.buyerId).mem_iff
  have hdue := amountDue_perm hperm line.buyerId
  constructor
  · rintro ⟨hbids, hamount, hname⟩
    exact ⟨hids.mp hbids, hamount.trans hdue, hbuyers ▸ hname⟩
  · rintro ⟨hbids, hamount, hname⟩
    exact ⟨hids.mpr hbids, hamount.trans hdue.symm, hbuyers ▸ hname⟩

theorem Billable.perm (hbillable : market.Billable) : other.Billable where
  prices bid hbid := hbillable.prices bid (hperm.mem_iff.mp hbid)
  buyers bid hbid := hbuyers ▸ hbillable.buyers bid (hperm.mem_iff.mp hbid)

/-- The order in which bids were recorded does not show in the invoices. -/
theorem Billable.invoices_perm (hbillable : market.Billable) (lines : List InvoiceLine) :
    other.invoices = .ok lines ↔ market.invoices = .ok lines := by
  rcases hbillable.invoices_cases with
    ⟨shown, heq, hordered, hmem, hfits⟩ | ⟨breakdown, heq, buyer, hlarge⟩
  · rcases (hbillable.perm hperm hbuyers).invoices_cases with
      ⟨shown', heq', hordered', hmem', -⟩ | ⟨-, -, buyer, hlarge⟩
    · have hlines : shown' = shown := by
        refine InvoiceLine.eq_of_mem_iff hordered' hordered fun line => ?_
        rw [hmem, hmem', isLine_perm hperm hbuyers]
      rw [heq, heq', hlines]
    · rw [amountDue_perm hperm] at hlarge
      exact absurd (hfits buyer) (Int.not_le.mpr hlarge)
  · rcases (hbillable.perm hperm hbuyers).invoices_cases with
      ⟨-, -, -, -, hfits⟩ | ⟨breakdown', heq', -⟩
    · rw [← amountDue_perm hperm] at hlarge
      exact absurd (hfits buyer) (Int.not_le.mpr hlarge)
    · rw [heq, heq']
      exact ⟨nofun, nofun⟩

end Market

/-- Invoices are made of what the store has at that moment, and nothing is changed by it. -/
theorem Service.perform_listInvoices (service : Service) :
    service.perform Query.listInvoices = (service.market.invoices, service) := by
  have hanswer : service.answer (.store .buyerTotals) = (service.market.buyerTotals, service) := rfl
  simp only [Service.perform, Query.listInvoices, Action.store, bind, ExceptT.run, ExceptT.mk,
    ExceptT.bind, Routine.bind, Routine.run, hanswer, Market.invoices]
  cases service.market.buyerTotals <;> rfl

/-- Whatever is run at the service, and in whatever order bids are recorded: the list of invoices
has one line for each buyer with a bid in the ledger and none for any other, in the order of the
buyers' ids, with the buyer's name and with what the buyer owes, which is the sum of all bids of the
buyer with tax and rounded down. There is no list if what a buyer owes does not fit in 64 bits, and
only then. No bid is left out of the totals before tax. Nothing is changed by making the list. Any
other service with the same buyers and with the same bids in any other order has the same list, or
none either. -/
theorem Floor.invoices_equal_ledger (moves : List (Move Business)) :
    let floor := (Floor.initial : Floor Business).play moves
    let market := floor.market
    let outcome := (floor.service.perform Query.listInvoices).1
    (floor.service.perform Query.listInvoices).2 = floor.service ∧
    ((∃ failure, outcome = .error failure) ↔ ∃ buyer, maxInt64 < market.amountDue buyer) ∧
    (∀ failure, outcome = .error failure → failure.kind = .internal) ∧
    (∀ lines, outcome = .ok lines →
      lines.Pairwise (fun line next => line.buyerId < next.buyerId) ∧
      (∀ id, (∃ line ∈ lines, line.buyerId = id) ↔ ∃ bid ∈ market.ledger, bid.buyerId = id) ∧
      ∀ line ∈ lines, line.totalAmount = market.amountDue line.buyerId ∧
        ∃ buyer, market.buyers.find? line.buyerId = some buyer ∧ line.buyerName = buyer.name) ∧
    (∀ totals, market.buyerTotals = .ok totals →
      (totals.map BuyerTotal.totalPrice).sum = (market.ledger.map Bid.price).sum) ∧
    ∀ other : Service, other.market.ledger.Perm market.ledger →
      other.market.buyers = market.buyers →
      (∀ lines, (other.perform Query.listInvoices).1 = .ok lines ↔ outcome = .ok lines) ∧
      ∀ failure, (other.perform Query.listInvoices).1 = .error failure →
        failure.kind = .internal := by
  intro floor market outcome
  have hbillable : market.Billable := Floor.billable moves
  have houtcome : outcome = market.invoices := by
    change (floor.service.perform Query.listInvoices).1 = _
    rw [Service.perform_listInvoices]
    rfl
  rw [Service.perform_listInvoices, houtcome]
  refine ⟨rfl, ?_, ?_, ?_, fun totals => hbillable.sum_buyerTotals, ?_⟩
  · rcases hbillable.invoices_cases with ⟨lines, heq, -, -, hfits⟩ | ⟨breakdown, heq, hlarge⟩
    · rw [heq]
      exact ⟨nofun, fun ⟨buyer, hlarge⟩ => absurd (hfits buyer) (Int.not_le.mpr hlarge)⟩
    · exact ⟨fun _ => hlarge, fun _ => ⟨_, heq⟩⟩
  · exact fun failure => hbillable.invoices_internal
  · intro lines hlines
    rcases hbillable.invoices_cases with ⟨shown, heq, hordered, hmem, -⟩ | ⟨breakdown, heq, -⟩
    · obtain rfl := Except.ok.inj (heq.symm.trans hlines)
      refine ⟨hordered, fun id => ⟨?_, ?_⟩, fun line hline => ?_⟩
      · rintro ⟨line, hline, rfl⟩
        exact List.mem_map.mp ((hmem line).mp hline).bids
      · intro hbids
        have hbuyer : id ∈ market.ledger.map Bid.buyerId := List.mem_map.mpr hbids
        obtain ⟨name, hname⟩ := hbillable.exists_name hbuyer
        exact ⟨⟨id, name, market.amountDue id⟩, (hmem _).mpr ⟨hbuyer, rfl, hname⟩, rfl⟩
      · obtain ⟨-, hamount, hname⟩ := (hmem line).mp hline
        obtain ⟨buyer, hbuyer, hname⟩ := Option.map_eq_some_iff.mp hname
        exact ⟨hamount, buyer, hbuyer, hname.symm⟩
    · cases heq.symm.trans hlines
  · intro other hperm hbuyers
    rw [Service.perform_listInvoices]
    exact ⟨hbillable.invoices_perm hperm hbuyers,
      fun failure => (hbillable.perm hperm hbuyers).invoices_internal⟩

end FishMarket
