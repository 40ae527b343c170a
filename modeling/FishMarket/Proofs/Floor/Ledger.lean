import FishMarket.Proofs.Floor.Errands
import FishMarket.Proofs.Floor.Orderly

/-! # The ledger

However many bids are placed at the same time, and whatever else is done, the ledger only grows,
and each bid in it was settled by one task. A task that has ended has settled just what it reports.
-/

namespace FishMarket

open Calendar

/-- The ledger only grows. -/
theorem Market.Traded.ledger_prefix {market after : Market} (htraded : market.Traded after) :
    market.ledger <+: after.ledger := by
  cases htraded with
  | changed hchange => exact hchange.ledger_eq ▸ List.prefix_rfl
  | settled transaction bid hfits =>
      rw [hfits.ledger_committed]
      exact List.prefix_append market.ledger [bid]
  | abandoned transactions =>
      have hledger := congrArg Market.ledger (market.foldl_close_eq transactions)
      exact hledger ▸ List.prefix_rfl

theorem Orderly.ledger_prefix {Errand : Type} [Trade Errand] {floor : Floor Errand}
    (horderly : Orderly floor.service floor.tasks) (moves : List (Move Errand)) :
    floor.market.ledger <+: (floor.play moves).market.ledger :=
  horderly.play_preserves (fun market => floor.market.ledger <+: market.ledger) List.prefix_rfl
    (fun hbefore _ htraded => hbefore.trans htraded.ledger_prefix) moves

namespace Task

/-- The bid that a task reports to have placed. -/
def placed? (task : Task Errand) : Option Bid :=
  task.result?.bind (Errand.placed? task.errand)

/-- Whether a task is over without having been cancelled after its commit: it has ended, or it was
dropped and has settled nothing. -/
def Over (task : Task Errand) : Prop :=
  task.result?.isSome ∨ task.dropped = true ∧ task.settled? = none

/-- A task that has settled a bid is one that was to place it. -/
theorem placeBid_of_settled {task : Task Errand} {market : Market} (hsound : task.Sound market)
    {bid : Bid} (hsettled : task.settled? = some bid) :
    ∃ place now, task.errand = .placeBid place now ∧ Settlement.Records place now bid := by
  -- the outcome of the course depends on the errand, so the task is taken apart first
  obtain ⟨errand, course, dropped⟩ := task
  have hfaithful : course.Faithful errand.Permits (Trade.Concludes errand) := hsound.faithful
  by_cases herrand : ∃ place now, errand = .placeBid place now
  · obtain ⟨place, now, rfl⟩ := herrand
    exact ⟨place, now, rfl, hfaithful.records (Course.staged?_of_settled hsettled)⟩
  · rw [Errand.permits_eq_idles fun place now heq => herrand ⟨place, now, heq⟩] at hfaithful
    cases hfaithful.settled?_of_idles.symm.trans hsettled

/-- A task that has ended has settled what it reports. -/
theorem settled?_eq_placed? {task : Task Errand} {market : Market} (hsound : task.Sound market)
    (hended : task.result?.isSome) : task.settled? = task.placed? := by
  obtain ⟨outcome, hresult⟩ := Option.isSome_iff_exists.mp hended
  calc task.settled?
    _ = task.course.phase.settled? := hsound.faithful.settled?_eq
    _ = task.errand.placed? outcome := Errand.settled?_eq (hsound.faithful.concludes hresult)
    _ = task.placed? := by rw [placed?, hresult, Option.bind_some]

/-- A task that is over has settled what it reports. -/
theorem Over.settled?_eq_placed? {task : Task Errand} {market : Market} (hover : task.Over)
    (hsound : task.Sound market) : task.settled? = task.placed? := by
  rcases hover with hended | ⟨hdropped, hnone⟩
  · exact task.settled?_eq_placed? hsound hended
  · rw [hnone, placed?, hsound.stopped hdropped, Option.bind_none]

end Task

/-- On the floor, from the start of the market on: later moves leave the bids in the ledger as they
are and in their order; the bids in the ledger are those that the tasks have settled, one for each
such task, and a task that has settled a bid was to place it; no two have the same id. A task that
has ended has settled what it reports, and nothing if it has failed. So once all tasks are over, and
none was cancelled after its commit, the ledger holds the bids that were reported, and no others. -/
theorem Floor.ledger_append_only_and_exactly_once (moves later : List (Move Errand)) :
    let floor := (Floor.initial : Floor Errand).play moves
    floor.market.ledger <+: (floor.play later).market.ledger ∧
    floor.market.ledger.Perm (floor.tasks.filterMap Task.settled?) ∧
    (∀ task ∈ floor.tasks, ∀ bid, task.settled? = some bid →
      ∃ place now, task.errand = .placeBid place now ∧ Settlement.Records place now bid) ∧
    (floor.market.ledger.map Bid.id).Nodup ∧
    (∀ task ∈ floor.tasks, task.result?.isSome → task.settled? = task.placed?) ∧
    ((∀ task ∈ floor.tasks, task.Over) →
      floor.market.ledger.Perm (floor.tasks.filterMap Task.placed?)) := by
  intro floor
  have horderly : Orderly floor.service floor.tasks := Orderly.initial.play moves
  refine ⟨horderly.ledger_prefix later, horderly.recorded, ?_, horderly.consistent.ledger_nodup,
    ?_, ?_⟩
  · exact fun task hmem bid hsettled => task.placeBid_of_settled (horderly.sound task hmem) hsettled
  · exact fun task hmem hended => task.settled?_eq_placed? (horderly.sound task hmem) hended
  · intro hover
    have hsame : floor.tasks.filterMap Task.settled? = floor.tasks.filterMap Task.placed? :=
      List.filterMap_congr fun task hmem =>
        (hover task hmem).settled?_eq_placed? (horderly.sound task hmem)
    exact hsame ▸ horderly.recorded

-- The bid that is staged first is committed last.
example (now : Instant) (date : Date) :
    let floor := (Floor.initial : Floor Errand).play [
      .enter (.direct (.createVenue ⟨"", "", ""⟩ now) ⟨nofun, rfl⟩), .serve 0 .answered,
      .enter (.direct (.createAuction ⟨1, date, none, none, none⟩ now) ⟨nofun, rfl⟩),
      .serve 1 .answered,
      .enter (.direct (.createFisherman "" now) ⟨nofun, rfl⟩), .serve 2 .answered,
      .enter (.direct (.createItem ⟨2, 3, "", 1, "", none, 1⟩ now) ⟨nofun, rfl⟩),
      .serve 3 .answered,
      .enter (.direct (.createBuyer "" now) ⟨nofun, rfl⟩), .serve 4 .answered,
      .enter (.placeBid ⟨4, 5, 100⟩ now), .enter (.placeBid ⟨4, 5, 200⟩ now),
      .serve 5 .answered, .serve 5 .answered, .serve 5 .answered,
      .serve 6 .answered, .serve 6 .answered, .serve 6 .answered,
      .serve 6 .answered, .serve 5 .answered, .serve 6 .answered, .serve 5 .answered]
    floor.market.ledger = [⟨7, 4, 5, 200, now⟩, ⟨6, 4, 5, 100, now⟩] := by
  cbv

end FishMarket
