import FishMarket.Command
import FishMarket.Proofs.Service.Course
import FishMarket.Proofs.Service.Weather

/-! # Failures of the store that surface

A failure of the store ends whatever is being done, and what it comes to is a report of that
failure. At most a transaction is rolled back first, and it makes no difference what comes of that.
So a routine that has not reported a failure has not met one, and what it calls after a failure
does not depend on which failure it was.
-/

namespace FishMarket

open Calendar

variable {α β : Type}

namespace ServiceRoutine

/-- Ends with a value, after a transaction has been rolled back if one is open. -/
def leave (open? : Option TransactionId) (value : α) : ServiceRoutine α :=
  match open? with
  | none => .done value
  | some transaction => .ask (.store (.rollback transaction)) fun _ => .done value

/-- Whether a routine leaves with a report of the failure when the store fails at one of
its calls. -/
def Surfaces (reports : (Failure → α) → Prop) : ServiceRoutine α → Prop
  | .done _ => True
  | .ask (.cache _) next => ∀ answer, Surfaces reports (next answer)
  | .ask (.store _) next =>
    (∀ value, Surfaces reports (next (.ok value))) ∧
      ∃ open? report, reports report ∧
        ∀ failure, next (.error failure) = leave open? (report failure)

namespace Surfaces

variable {reports : (Failure → α) → Prop} {routine : ServiceRoutine α}

theorem bind {reports' : (Failure → β) → Prop} {next : α → ServiceRoutine β}
    (hfirst : routine.Surfaces reports) (hnext : ∀ value, (next value).Surfaces reports')
    (hreports : ∀ report, reports report →
      ∃ report', reports' report' ∧ ∀ failure, next (report failure) = .done (report' failure)) :
    Surfaces reports' (routine.bind next) := by
  induction routine with
  | done value => exact hnext value
  | ask call rest ih =>
      cases call with
      | cache call => exact fun answer => ih answer (hfirst answer)
      | store call =>
          obtain ⟨hok, open?, report, hreport, herror⟩ := hfirst
          obtain ⟨report', hreport', hdone⟩ := hreports report hreport
          refine ⟨fun value => ih _ (hok value), open?, report', hreport', fun failure => ?_⟩
          refine (congrArg (Routine.bind · next) (herror failure)).trans ?_
          cases open? with
          | none => exact hdone failure
          | some transaction => exact congrArg (Routine.ask _) (funext fun _ => hdone failure)

end Surfaces

end ServiceRoutine

/-! ## Actions -/

namespace Action

/-- Whether an action fails with each failure of the store. -/
def Surfaces (action : Action α) : Prop :=
  ServiceRoutine.Surfaces (fun report => report = .error) action.run

namespace Surfaces

theorem returned (value : α) : (pure value : Action α).Surfaces := trivial

theorem thrown (failure : Failure) : (throw failure : Action α).Surfaces := trivial

theorem ended (outcome : Except Failure α) : (ofExcept outcome).Surfaces := trivial

theorem andThen {first : Action α} {next : α → Action β} (hfirst : first.Surfaces)
    (hnext : ∀ value, (next value).Surfaces) : (first >>= next).Surfaces := by
  refine ServiceRoutine.Surfaces.bind hfirst (fun outcome => ?_) ?_
  · cases outcome with
    | ok value => exact hnext value
    | error failure => exact trivial
  · rintro report rfl
    exact ⟨.error, rfl, fun _ => rfl⟩

theorem store (call : StoreCall) : (Action.store call).Surfaces :=
  ⟨fun _ => trivial, none, .error, rfl, fun _ => rfl⟩

theorem cache (call : CacheCall) : (Action.cache call).Surfaces := fun _ => trivial

theorem composes : Routine.Composes fun _ action => Surfaces action :=
  ⟨returned, thrown, andThen⟩

theorem forget (key : String) : (Action.forget key).Surfaces := composes.forget (cache _)

theorem lookup {look : Action (Option α)} (subject : Subject) (hlook : look.Surfaces) :
    (look >>= found subject).Surfaces :=
  composes.lookup subject hlook

/-- A fault of the cache is passed over, and a failure of the store behind it is not. -/
theorem readThrough [Recorded α] {load : Action (Option α)} (key : String) (ttl : Nat)
    (hload : load.Surfaces) : (Action.readThrough key ttl load).Surfaces :=
  composes.readThrough (cache _) hload fun _ => cache _

end Surfaces

end Action

/-! ## Commands -/

namespace Command

theorem createVenue_surfaces (venue : NewVenue) (now : Instant) :
    (createVenue venue now).Surfaces :=
  createVenue_composes Action.Surfaces.composes (.store _)

theorem deleteVenue_surfaces (id : Int) (now : Instant) : (deleteVenue id now).Surfaces :=
  .store _

theorem createAuction_surfaces (auction : NewAuction) (now : Instant) :
    (createAuction auction now).Surfaces :=
  createAuction_composes Action.Surfaces.composes (.store _) (.store _)

theorem updateAuctionStatus_surfaces (id : Int) (status : String) (now : Instant) :
    (updateAuctionStatus id status now).Surfaces :=
  updateAuctionStatus_composes Action.Surfaces.composes status (.store _) fun _ => .store _

theorem deleteAuction_surfaces (id : Int) : (deleteAuction id).Surfaces :=
  deleteAuction_composes Action.Surfaces.composes (.store _) (.store _) fun _ => .forget _

theorem createItem_surfaces (item : NewItem) (now : Instant) :
    (createItem item now).Surfaces :=
  createItem_composes Action.Surfaces.composes (.store _) (.store _) (.store _)

theorem updateItemStatus_surfaces (id : Int) (status : String) :
    (updateItemStatus id status).Surfaces :=
  updateItemStatus_composes Action.Surfaces.composes status (.store _) (fun _ => .store _)
    (.forget _)

/-- A bid fails with the failure of its step, whatever comes of rolling it back. -/
theorem placeBid_surfaces (bid : PlaceBid) (now : Instant) : (placeBid bid now).Surfaces := by
  refine .andThen (.ended _) fun _ => .andThen (.store _) fun transaction => ?_
  refine ⟨fun _ => ⟨fun placed => ⟨fun _ _ => trivial, none, ?_⟩, some transaction, ?_⟩,
    some transaction, ?_⟩ <;> exact ⟨.error, rfl, fun _ => rfl⟩

end Command

/-! ## Queries -/

namespace Query

theorem reconcile_surfaces (auction : Auction) (now : Instant) :
    (reconcile auction now).Surfaces :=
  reconcile_composes Action.Surfaces.composes (.store _)

theorem getAuction_surfaces (id : Int) (now : Instant) : (getAuction id now).Surfaces :=
  .andThen (.lookup _ (.store _)) fun auction => reconcile_surfaces auction now

theorem getAllAuctions_surfaces (now : Instant) : (getAllAuctions now).Surfaces :=
  .andThen (.store _) fun auctions =>
    Action.Surfaces.composes.mapM auctions fun auction => reconcile_surfaces auction now

theorem getAuctionItems_surfaces (id : Int) : (getAuctionItems id).Surfaces :=
  .andThen (.lookup _ (.store _)) fun _ => .store _

theorem getItemBids_surfaces (id : Int) : (getItemBids id).Surfaces :=
  .andThen (.lookup _ (.store _)) fun _ => .store _

theorem listInvoices_surfaces : listInvoices.Surfaces :=
  .andThen (.store _) fun _ => .ended _

end Query

/-! ## A store that fails once -/

/-- Whether the one failure of a store is still to come. -/
inductive StoreFault where
  /-- So many calls are answered before the one that fails. -/
  | due (calls : Nat)
  /-- A call has failed. -/
  | struck (call : StoreCall)
deriving DecidableEq, Repr

/-- An exposed service whose store fails once. -/
structure Faulty where
  exposed : Exposed
  fault : StoreFault

namespace Faulty

/-- Answers a call, or fails instead if the failure is due. -/
def answer (forecast : Forecast) (failure : Failure) :
    (call : ServiceCall) → Faulty → call.Answer × Faulty
  | .store call, ⟨exposed, .due 0⟩ =>
    let (reply, service) :=
      (exposed.found (forecast exposed.calls)).receive (.store call) (.refused failure)
    (reply, ⟨⟨service, exposed.calls + 1⟩, .struck call⟩)
  | .store call, ⟨exposed, .due (calls + 1)⟩ =>
    let (reply, exposed) := exposed.answer forecast (.store call)
    (reply, ⟨exposed, .due calls⟩)
  | call, ⟨exposed, fault⟩ =>
    let (reply, exposed) := exposed.answer forecast call
    (reply, ⟨exposed, fault⟩)

variable {forecast : Forecast} {failure : Failure}

theorem run_due {asked : StoreCall} (next : asked.Answer → ServiceRoutine α) (exposed : Exposed)
    (calls : Nat) :
    Routine.run (answer forecast failure) (.ask (.store asked) next) ⟨exposed, .due (calls + 1)⟩ =
      let answered := exposed.answer forecast (.store asked)
      (next answered.1).run (answer forecast failure) ⟨answered.2, .due calls⟩ :=
  rfl

theorem run_leave (open? : Option TransactionId) (value : α) (faulty : Faulty) :
    ((ServiceRoutine.leave open? value).run (answer forecast failure) faulty).1 = value := by
  cases open? <;> rfl

/-- Which failure it is makes no difference to the state after a call. -/
theorem answer_state (other : Failure) (call : ServiceCall) (faulty : Faulty) :
    (faulty.answer forecast failure call).2 = (faulty.answer forecast other call).2 := by
  obtain ⟨exposed, fault⟩ := faulty
  cases call with
  | cache call => rfl
  | store call =>
      cases fault with
      | struck former => rfl
      | due calls => cases calls <;> rfl

/-- Nor to a routine that leaves. -/
theorem run_leave_congr (other : Failure) (open? : Option TransactionId) (value : α)
    (faulty : Faulty) :
    (ServiceRoutine.leave open? value).run (answer forecast failure) faulty =
      (ServiceRoutine.leave open? value).run (answer forecast other) faulty := by
  cases open? with
  | none => rfl
  | some transaction => exact Prod.ext rfl (answer_state other _ faulty)

end Faulty

namespace ServiceRoutine.Surfaces

open Faulty (answer)

variable {reports : (Failure → α) → Prop} {routine : ServiceRoutine α}

/-- Where the store has failed there is a report, and it is a report of that failure unless the
store has failed at a rollback. -/
theorem reported (hsurfaces : routine.Surfaces reports) (forecast : Forecast) (failure : Failure)
    {exposed : Exposed} {calls : Nat} {call : StoreCall}
    (hstruck : (routine.run (answer forecast failure) ⟨exposed, .due calls⟩).2.fault =
      .struck call) :
    ∃ report, reports report ∧ ∃ cause,
      (routine.run (answer forecast failure) ⟨exposed, .due calls⟩).1 = report cause ∧
        ((∀ transaction, call ≠ .rollback transaction) → cause = failure) := by
  induction routine generalizing exposed calls with
  | done value => cases hstruck
  | ask asked next ih =>
      cases asked with
      | cache asked => exact ih _ (hsurfaces _) hstruck
      | store asked =>
          obtain ⟨hok, open?, report, hreport, herror⟩ := hsurfaces
          cases calls with
          | zero =>
              refine ⟨report, hreport, failure, ?_, fun _ => rfl⟩
              change ((next (.error failure)).run _ _).1 = _
              rw [herror, Faulty.run_leave]
          | succ calls =>
              rw [Faulty.run_due] at hstruck ⊢
              generalize exposed.answer forecast (.store asked) = answered at hstruck ⊢
              obtain ⟨reply, after⟩ := answered
              cases reply with
              | ok value => exact ih _ (hok value) hstruck
              | error earlier =>
                  -- a failure of the request's own making, after which only a rollback can fail
                  dsimp only at hstruck ⊢
                  rw [herror] at hstruck ⊢
                  refine ⟨report, hreport, earlier, Faulty.run_leave .., fun hnot => ?_⟩
                  cases open? with
                  | none => cases hstruck
                  | some transaction =>
                      cases calls with
                      | succ calls => cases hstruck
                      | zero =>
                          cases hstruck
                          exact absurd rfl (hnot transaction)

/-- Which failure it is makes a difference to the report only. -/
theorem run_congr (hsurfaces : routine.Surfaces reports) (forecast : Forecast)
    {failure other : Failure} (hsame : ∀ report, reports report → report failure = report other)
    (faulty : Faulty) :
    routine.run (answer forecast failure) faulty = routine.run (answer forecast other) faulty := by
  induction routine generalizing faulty with
  | done value => rfl
  | ask asked next ih =>
      obtain ⟨exposed, fault⟩ := faulty
      cases asked with
      | cache asked => exact ih _ (hsurfaces _) _
      | store asked =>
          obtain ⟨hok, open?, report, hreport, herror⟩ := hsurfaces
          -- after a failure of the market itself the routine leaves as well
          have hanswered (reply : asked.Answer) (state : Faulty) :
              (next reply).run (answer forecast failure) state =
                (next reply).run (answer forecast other) state := by
            cases reply with
            | ok value => exact ih _ (hok value) state
            | error earlier =>
                rw [herror]
                exact Faulty.run_leave_congr other open? _ state
          cases fault with
          | struck former => exact hanswered _ _
          | due calls =>
              cases calls with
              | succ calls => exact hanswered _ _
              | zero =>
                  change (next (.error failure)).run _ _ = (next (.error other)).run _ _
                  rw [herror, herror, hsame report hreport]
                  exact Faulty.run_leave_congr other open? _ _

end ServiceRoutine.Surfaces

end FishMarket
