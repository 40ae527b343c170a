import FishMarket.Proofs.Floor.Errands
import FishMarket.Proofs.Floor.Moments
import FishMarket.Proofs.Market.Lifecycle
import FishMarket.Proofs.Service.Completion

/-! # Auctions on the floor

Readers, the sweep and whoever runs the market by hand all write to the rows of auctions, each on
the strength of what was stored some time before. That no auction is completed early rests on two
things: a row that has ended is never written again, and the schedule of an auction is never
written at all, so what was overdue once is overdue until it has ended.
-/

namespace FishMarket

open Calendar

/-! ## What readers do -/

theorem Service.receive_reading {service : Service} {call : ServiceCall}
    (hreads : call.IsReading) (reception : Reception) :
    (service.receive call reception).2.market = service.market := by
  cases call with
  | cache call => cases reception <;> rfl
  | store call =>
      unfold ServiceCall.IsReading at hreads
      cases reception with
      | answered => cases call <;> first | rfl | cases hreads
      | refused failure => cases call <;> first | rfl | cases hreads

namespace Market

variable {market : Market}

/-- An auction that is shown is the one that is stored under its id. -/
theorem Filed.find?_shown (hfiled : market.Filed) {call : StoreCall} {auction : Auction}
    (hshown : auction ∈ call.shown (market.answer call).1) :
    market.auctions.find? auction.id = some auction := by
  have hvalue (hmem : auction ∈ market.auctions.values) :
      market.auctions.find? auction.id = some auction := by
    obtain ⟨id, hfound⟩ := Table.mem_values_iff.mp hmem
    exact hfiled.auctions id auction hfound ▸ hfound
  cases call
  case findAuction id =>
    have hfound : market.auctions.find? id = some auction := Option.mem_toList.mp hshown
    exact hfiled.auctions id auction hfound ▸ hfound
  case listAuctions => exact hvalue (List.mem_mergeSort.mp hshown)
  case listOpenAuctions => exact hvalue (List.mem_of_mem_filter hshown)
  all_goals cases hshown

end Market

theorem Act.find?_shown {act : Act} (hconsistent : act.before.market.Consistent)
    {auction : Auction} (hshown : auction ∈ act.call.shown act.answer) :
    act.before.market.auctions.find? auction.id = some auction := by
  obtain ⟨call, reception, before⟩ := act
  cases call with
  | cache call => cases hshown
  | store call =>
      cases reception with
      | answered => exact hconsistent.filed.find?_shown hshown
      | refused failure => cases call <;> cases hshown

/-- What a reader has been shown is what it had at the start and what its acts have shown. -/
theorem Course.mem_reached {α : Type} {now : Instant} {start : List Auction} {auction : Auction}
    {course : Course α} (hmem : auction ∈ course.reached (Query.completion now) start) :
    auction ∈ start ∨ ∃ act ∈ course.acts, auction ∈ act.call.shown act.answer := by
  obtain ⟨acts, rest⟩ := course
  induction acts using List.reverseRecOn with
  | nil => exact .inl hmem
  | append_singleton acts act ih =>
      rw [Course.reached_append] at hmem
      rcases List.mem_append.mp hmem with hbefore | hshown
      · refine (ih hbefore).imp_right fun ⟨earlier, hearlier, h⟩ => ?_
        exact ⟨earlier, List.mem_append_left _ hearlier, h⟩
      · exact .inr ⟨act, List.mem_append_right _ List.mem_cons_self, hshown⟩

/-! ## Rows at two moments -/

namespace Floor

variable {Errand : Type} [Trade Errand] {moves : List (Move Errand)}

/-- A later row has come from an earlier one. -/
theorem auctionLeads_play (moves later : List (Move Errand)) {id : Int} {auction : Auction}
    (hauction : (initial.play moves : Floor Errand).market.auctions.find? id = some auction) :
    ((initial.play moves : Floor Errand).play later).market.AuctionLeads id auction := by
  have horderly : Orderly (initial.play moves : Floor Errand).service _ := Orderly.initial.play moves
  refine horderly.play_stable (Market.AuctionLeads.stable id auction) ?_ later
  refine ⟨horderly.consistent.auction_le_lastId hauction, fun found hfound => ?_⟩
  obtain rfl := Option.some.inj (hauction.symm.trans hfound)
  exact .refl _

/-- At any two moments of a run an auction has the same schedule. -/
theorem sameSchedule {first second : List (Move Errand)} (hfirst : first <+: moves)
    (hsecond : second <+: moves) {id : Int} {auction other : Auction}
    (hauction : (initial.play first : Floor Errand).market.auctions.find? id = some auction)
    (hother : (initial.play second : Floor Errand).market.auctions.find? id = some other) :
    auction.SameSchedule other := by
  rcases List.prefix_or_prefix_of_prefix hfirst hsecond with ⟨later, rfl⟩ | ⟨later, rfl⟩
  · rw [play_append] at hother
    exact ((auctionLeads_play first later hauction).2 other hother).schedule
  · rw [play_append] at hauction
    exact ((auctionLeads_play second later hother).2 auction hauction).schedule.symm

end Floor

/-! ## Readers -/

namespace Business

/-- Whether a business only reads, and at which time. -/
def ReadsAt (now : Instant) : Business → Prop
  | errand (.getAuction _ time) => time = now
  | errand (.getAllAuctions time) => time = now
  | errand (.reconcile _ time) => time = now
  | errand (.reconcileAll time) => time = now
  | errand (.sweep time) => time = now
  | request _ time received => time = now ∧ (received.method = .get ∨ received.method = .head)
  | _ => False

/-- The row that a business is given to reconcile. -/
def snapshot? : Business → Option Auction
  | errand (.reconcile auction _) => some auction
  | _ => none

theorem completes {business : Business} {now : Instant} (hreads : business.ReadsAt now) :
    ServiceRoutine.Completes (Trade.routine business) now business.snapshot?.toList := by
  cases business with
  | request ttl time received =>
      obtain ⟨rfl, hmethod⟩ := hreads
      exact Http.respond_completes hmethod
  | errand work =>
      cases work with
      | getAuction id time => cases hreads; exact Query.getAuction_completes id
      | getAllAuctions time => cases hreads; exact Query.getAllAuctions_completes
      | reconcile auction time => cases hreads; exact Query.reconcile_completes List.mem_cons_self
      | reconcileAll time => cases hreads; exact Query.reconcileAll_completes
      | sweep time => cases hreads; exact Query.sweep_completes
      | _ => cases hreads

end Business

/-- If a reader changes the row of an auction, then the row was overdue just before and is completed
just after. The rows that the reader has decided on may have been stored at any other moments. -/
theorem Floor.overdue_of_written {moves : List (Move Business)} {task : Task Business}
    (hmem : task ∈ (initial.play moves : Floor Business).tasks) {now : Instant}
    (hreads : task.errand.ReadsAt now)
    (hsnapshot : ∀ snapshot, task.errand.snapshot? = some snapshot → ∃ moment, moment <+: moves ∧
      (initial.play moment : Floor Business).market.auctions.find? snapshot.id = some snapshot)
    {act : Act} (hact : act ∈ task.course.acts) {id : Int} {stored row : Auction}
    (hstored : act.before.market.auctions.find? id = some stored)
    (hrow : act.after.market.auctions.find? id = some row) (hwritten : row ≠ stored) :
    stored.isOverdue now = true ∧
      row = { stored with status := .completed, updatedAt := now } := by
  -- every row that the reader has been shown was stored at some moment
  have hmoment (auction : Auction) (hshown : auction ∈ task.errand.snapshot?.toList ∨
      ∃ act ∈ task.course.acts, auction ∈ act.call.shown act.answer) :
      ∃ moment, moment <+: moves ∧
        (initial.play moment : Floor Business).market.auctions.find? auction.id = some auction := by
    rcases hshown with hgiven | ⟨earlier, hearlier, hshown⟩
    · exact hsnapshot auction (Option.mem_toList.mp hgiven)
    · obtain ⟨moment, hprefix, hbefore⟩ := moment_of_act moves task hmem earlier hearlier
      have hmarket : earlier.before.market = (initial.play moment : Floor Business).market :=
        congrArg Service.market hbefore
      have hconsistent : earlier.before.market.Consistent :=
        hmarket ▸ (Orderly.initial.play moment).consistent
      exact ⟨moment, hprefix, hmarket ▸ earlier.find?_shown hconsistent hshown⟩
  obtain ⟨before, after, hacts⟩ := List.append_of_mem hact
  have hkept := kept_of_fulfils hmem (Business.completes hreads)
  rcases hkept before act ⟨after, by rw [hacts, List.append_assoc]; rfl⟩ with
    hreading | ⟨auction, hseen, hoverdue, hcall⟩
  · -- a call that only reads has changed no row
    unfold Act.after at hrow
    rw [Service.receive_reading hreading] at hrow
    exact absurd (Option.some.inj (hrow.symm.trans hstored)) hwritten
  · -- the row that was shown and the one that is stored have the same schedule
    obtain ⟨call, reception, service⟩ := act
    obtain rfl : call = _ := hcall
    obtain ⟨shown, hshown, hfound⟩ := hmoment auction <|
      (Course.mem_reached hseen).imp_right fun ⟨earlier, hearlier, h⟩ =>
        ⟨earlier, hacts ▸ List.mem_append_left _ hearlier, h⟩
    obtain ⟨moment, hmoment, hservice⟩ := moment_of_act moves task hmem _ hact
    have hhere : (initial.play moment : Floor Business).market.auctions.find? id = some stored := by
      have hmarket : service.market = (initial.play moment : Floor Business).market :=
        congrArg Service.market hservice
      exact hmarket ▸ hstored
    cases reception with
    | refused failure => exact absurd (Option.some.inj (hrow.symm.trans hstored)) hwritten
    | answered =>
        obtain ⟨rfl, hopen, hcompleted⟩ := Market.find?_completeAuction hstored hrow hwritten
        exact ⟨(sameSchedule hshown hmoment hfound hhere).isOverdue hopen hoverdue, hcompleted⟩

/-- Whatever is run at the service and in whatever order the calls are made, by hand included: of
the row of an auction no more than the status and the time of the last change are ever different
later, and nothing once it has ended; when it is gone, there is no auction under its id ever again.
No reader writes to an auction except to complete it, and what is completed was overdue just before,
by the time at which the reader reads. A row that is given to be reconciled need only have been
stored at some moment. -/
theorem Floor.ended_for_good_and_never_early (moves later last : List (Move Business)) :
    let floor := (Floor.initial : Floor Business).play moves
    (∀ id auction, floor.market.auctions.find? id = some auction →
      (∀ row, (floor.play later).market.auctions.find? id = some row →
        row = { auction with status := row.status, updatedAt := row.updatedAt } ∧
        (auction.status.isTerminal = true → row = auction)) ∧
      ((floor.play later).market.auctions.find? id = none →
        ((floor.play later).play last).market.auctions.find? id = none)) ∧
    ∀ task ∈ floor.tasks, ∀ now, task.errand.ReadsAt now →
      (∀ snapshot, task.errand.snapshot? = some snapshot → ∃ moment, moment <+: moves ∧
        ((Floor.initial : Floor Business).play moment).market.auctions.find? snapshot.id =
          some snapshot) →
      ∀ act ∈ task.course.acts, ∀ id stored row,
        act.before.market.auctions.find? id = some stored →
        act.after.market.auctions.find? id = some row → row ≠ stored →
        stored.isOverdue now = true ∧
          row = { stored with status := .completed, updatedAt := now } := by
  intro floor
  have horderly : Orderly (floor.play later).service (floor.play later).tasks :=
    (Orderly.initial.play moves).play later
  refine ⟨fun id auction hauction => ?_, ?_⟩
  · obtain ⟨hgiven, hleads⟩ := Floor.auctionLeads_play moves later hauction
    refine ⟨fun row hrow => ⟨(hleads row hrow).schedule, (hleads row hrow).ended⟩, fun hnone => ?_⟩
    exact (horderly.play_stable (Market.AuctionGone.stable id) ⟨hgiven, hnone⟩ last).2
  · intro task hmem now hreads hsnapshot act hact id stored row
    exact Floor.overdue_of_written hmem hreads hsnapshot hact

-- The row is written by hand after it was shown to the reader that completes it.
example :
    let midnight (day : Int) : Instant := ⟨⟨day⟩, .midnight⟩
    let floor := (Floor.initial : Floor Errand).play [
      .enter (.direct (.createVenue ⟨"", "", ""⟩ (midnight 0)) ⟨nofun, rfl⟩), .serve 0 .answered,
      .enter (.direct (.createAuction ⟨1, ⟨0⟩, none, none, none⟩ (midnight 0)) ⟨nofun, rfl⟩),
      .serve 1 .answered,
      .enter (.getAuction 2 (midnight 2)), .serve 2 .answered,
      .enter (.direct (.updateAuctionStatus 2 .inProgress (midnight 1)) ⟨nofun, rfl⟩),
      .serve 3 .answered, .serve 2 .answered]
    floor.market.auctions.find? 2 =
      some ⟨2, 1, ⟨0⟩, none, none, .completed, midnight 0, midnight 2⟩ := by
  cbv

end FishMarket
