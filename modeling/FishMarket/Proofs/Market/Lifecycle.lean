import FishMarket.Proofs.Market.Stability

/-! # The life of an auction

Of the row of an auction nothing is ever written but its status and the time of the last change,
and these only until it has ended. So what an earlier row tells about the schedule holds of every
later one.
-/

namespace FishMarket

open Calendar

theorem AuctionStatus.ended_cases {status : AuctionStatus} (hended : status.isTerminal = true) :
    status = .completed ∨ status = .cancelled := by
  cases status with
  | completed => exact .inl rfl
  | cancelled => exact .inr rfl
  | scheduled | inProgress => cases hended

namespace Auction

variable {auction other : Auction} {now : Instant}

/-- The row of an auction once somebody has completed it: one that has ended stays as it is. -/
def completed (auction : Auction) (now : Instant) : Auction :=
  if auction.status.isTerminal then auction
  else { auction with status := .completed, updatedAt := now }

theorem isTerminal_completed (auction : Auction) (now : Instant) :
    (auction.completed now).status.isTerminal = true := by
  unfold completed
  split
  next hended => exact hended
  next => rfl

theorem completed_of_ended (hended : auction.status.isTerminal = true) :
    auction.completed now = auction :=
  if_pos hended

/-- Who completes an auction after somebody else leaves it as it is. -/
theorem completed_completed (auction : Auction) (now later : Instant) :
    (auction.completed now).completed later = auction.completed now :=
  completed_of_ended (auction.isTerminal_completed now)

/-- What has ended is not overdue. -/
theorem isOverdue_of_ended (hended : auction.status.isTerminal = true) :
    auction.isOverdue now = false := by
  simp [isOverdue, hended]

/-- Whether two rows differ in nothing but their status and the time of the last change. -/
def SameSchedule (auction other : Auction) : Prop :=
  other = { auction with status := other.status, updatedAt := other.updatedAt }

theorem SameSchedule.symm (hsame : auction.SameSchedule other) : other.SameSchedule auction := by
  unfold SameSchedule at hsame ⊢
  rw [hsame]

theorem SameSchedule.trans {third : Auction} (hsame : auction.SameSchedule other)
    (hnext : other.SameSchedule third) : auction.SameSchedule third := by
  unfold SameSchedule at hsame hnext ⊢
  rw [hnext, hsame]

/-- Of two rows with one schedule, one that has not ended is overdue if the other is. -/
theorem SameSchedule.isOverdue (hsame : auction.SameSchedule other)
    (hopen : other.status.isTerminal = false) (hoverdue : auction.isOverdue now = true) :
    other.isOverdue now = true := by
  unfold Auction.isOverdue at hoverdue ⊢
  rw [hopen, hsame]
  exact (Bool.and_eq_true_iff.mp hoverdue).2

/-- Whether a row may stand where another stood before. -/
structure Leads (earlier later : Auction) : Prop where
  schedule : earlier.SameSchedule later
  ended : earlier.status.isTerminal = true → later = earlier

theorem Leads.refl (auction : Auction) : auction.Leads auction := ⟨rfl, fun _ => rfl⟩

/-- What is written to a row that has not ended follows from whatever the row followed from. -/
theorem Leads.written (hleads : auction.Leads other) (hopen : other.status.isTerminal = false)
    (status : AuctionStatus) (now : Instant) :
    auction.Leads { other with status := status, updatedAt := now } := by
  refine ⟨hleads.schedule.trans rfl, fun hended => ?_⟩
  rw [hleads.ended hended, hended] at hopen
  cases hopen

end Auction

namespace Market

/-- Whether an id was given out, and whatever auction is under it may follow on the given one. -/
def AuctionLeads (id : Int) (auction : Auction) (market : Market) : Prop :=
  id ≤ market.lastId ∧ ∀ row, market.auctions.find? id = some row → auction.Leads row

theorem AuctionLeads.stable (id : Int) (auction : Auction) :
    Stable (AuctionLeads id auction) where
  change := by
    rintro market after named ⟨hgiven, hleads⟩ - hchange
    refine ⟨Int.le_trans hgiven hchange.lastId_le, fun row hrow => ?_⟩
    rcases hchange.find?_auction hgiven with
      hsame | ⟨before, status, now, hfound, hopen, hafter⟩ | ⟨-, hnone⟩
    · exact hleads row (hsame.symm.trans hrow)
    · obtain rfl := Option.some.inj (hafter.symm.trans hrow)
      exact (hleads before hfound).written hopen status now
    · cases hnone.symm.trans hrow
  committed := by
    rintro market transaction ⟨hgiven, hleads⟩ - -
    refine ⟨by rwa [committed_lastId], fun row hrow => hleads row ?_⟩
    rwa [committed_auctions] at hrow

/-- Whether an id was given out and there is no auction under it. -/
def AuctionGone (id : Int) (market : Market) : Prop :=
  id ≤ market.lastId ∧ market.auctions.find? id = none

/-- An auction that is gone does not come back. -/
theorem AuctionGone.stable (id : Int) : Stable (AuctionGone id) where
  change := by
    rintro market after named ⟨hgiven, hnone⟩ - hchange
    refine ⟨Int.le_trans hgiven hchange.lastId_le, ?_⟩
    rcases hchange.find?_auction hgiven with hsame | ⟨auction, -, -, hfound, -⟩ | ⟨-, hgone⟩
    · exact hsame.trans hnone
    · cases hnone.symm.trans hfound
    · exact hgone
  committed := by
    rintro market transaction ⟨hgiven, hnone⟩ - -
    exact ⟨by rwa [committed_lastId], by rwa [committed_auctions]⟩

/-- Whether there is an auction under an id that has not ended. -/
def AuctionOpen (id : Int) (market : Market) : Prop :=
  ∃ auction, market.auctions.find? id = some auction ∧ auction.status.isTerminal = false

theorem not_auctionOpen_iff {market : Market} {id : Int} : ¬ market.AuctionOpen id ↔
    ∀ row, market.auctions.find? id = some row → row.status.isTerminal = true := by
  simp [AuctionOpen]

/-- Whether an id was given out, and there is no auction under it that has not ended. -/
def AuctionOver (id : Int) (market : Market) : Prop :=
  id ≤ market.lastId ∧ ¬ market.AuctionOpen id

/-- An auction that is over does not begin again. -/
theorem AuctionOver.stable (id : Int) : Stable (AuctionOver id) where
  change := by
    rintro market after named ⟨hgiven, hover⟩ - hchange
    refine ⟨Int.le_trans hgiven hchange.lastId_le, fun ⟨row, hrow, hopen⟩ => hover ?_⟩
    rcases hchange.find?_auction hgiven with hsame | ⟨found, -, -, hfound, hbefore, -⟩ | ⟨-, hnone⟩
    · exact ⟨row, hsame.symm.trans hrow, hopen⟩
    · exact ⟨found, hfound, hbefore⟩
    · cases hnone.symm.trans hrow
  committed := by
    rintro market transaction ⟨hgiven, hover⟩ - -
    refine ⟨by rwa [committed_lastId], fun ⟨row, hrow, hopen⟩ => hover ⟨row, ?_, hopen⟩⟩
    rwa [committed_auctions] at hrow

/-! ## Writes -/

/-- Where an auction has not ended, its status is written, and nothing else is changed but the time
of the last change. -/
theorem writeAuctionStatus_of_open {market : Market} {id : Int} {stored : Auction}
    (hstored : market.auctions.find? id = some stored) (hopen : stored.status.isTerminal = false)
    (status : AuctionStatus) (now : Instant) :
    let changed := { stored with status := status, updatedAt := now }
    market.writeAuctionStatus id status now =
      (some changed, { market with auctions := market.auctions.modify id fun _ => changed }) := by
  simp [writeAuctionStatus, hstored, hopen]

/-- Nothing is written where there is no auction that has not ended. -/
theorem writeAuctionStatus_of_not_open {market : Market} {id : Int}
    (hover : ¬ market.AuctionOpen id) (status : AuctionStatus) (now : Instant) :
    market.writeAuctionStatus id status now = (none, market) := by
  unfold writeAuctionStatus
  split
  next => rfl
  next stored hstored => rw [if_pos (not_auctionOpen_iff.mp hover stored hstored)]

/-- A completion does to one row what completing it does, and reports it as it then is. -/
theorem completeAuction_eq (market : Market) (id : Int) (now : Instant) :
    market.completeAuction id now =
      ((market.auctions.find? id).map fun auction => auction.completed now,
        { market with
          auctions := market.auctions.modify id fun auction => auction.completed now }) := by
  have hchange (auction : Auction) (hfound : market.auctions.find? id = some auction) :
      (market.auctions.modify id fun auction => auction.completed now) =
        market.auctions.modify id fun _ => auction.completed now := by
    apply Table.modify_congr
    intro other hother
    rw [Option.some.inj (hfound.symm.trans hother)]
  cases hfound : market.auctions.find? id with
  | none => simp only [completeAuction, hfound, Option.map_none, Table.modify_eq_self _ hfound]
  | some auction =>
      rw [hchange auction hfound]
      cases hended : auction.status.isTerminal with
      | true =>
          have hsame : (market.auctions.modify id fun _ => auction.completed now) =
              market.auctions := by
            rw [← hchange auction hfound]
            refine (Table.modify_congr fun other hother => ?_).trans (Table.modify_id _ id)
            obtain rfl := Option.some.inj (hfound.symm.trans hother)
            exact Auction.completed_of_ended hended
          rw [hsame, Option.map_some, Auction.completed_of_ended hended]
          simp only [completeAuction, hfound, hended, if_true]
      | false => simp [completeAuction, writeAuctionStatus, hfound, Auction.completed, hended]

/-- What a completion does to a row. -/
theorem find?_completeAuction {market : Market} {id other : Int} {now : Instant}
    {stored row : Auction} (hstored : market.auctions.find? id = some stored)
    (hrow : (market.completeAuction other now).2.auctions.find? id = some row)
    (hwritten : row ≠ stored) :
    id = other ∧ stored.status.isTerminal = false ∧
      row = { stored with status := .completed, updatedAt := now } := by
  simp only [completeAuction_eq, Table.find?_modify, hstored] at hrow
  split at hrow
  next hsame =>
    obtain rfl : stored.completed now = row := Option.some.inj hrow
    cases hended : stored.status.isTerminal with
    | true => exact absurd (stored.completed_of_ended hended) hwritten
    | false => exact ⟨hsame, rfl, by simp [Auction.completed, hended]⟩
  next => exact absurd (Option.some.inj hrow).symm hwritten

end Market

end FishMarket
