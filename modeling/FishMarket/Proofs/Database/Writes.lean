import FishMarket.Command
import FishMarket.Proofs.Database.Transactions

/-! # What is written in transactions

A bid marks its item and is recorded, and a venue is locked and looked at before it is given up.
Both keep to their plan with any server: nothing is written outside the one transaction that was
begun for it, and nothing is reported as done that was not committed.
-/

namespace FishMarket

open Calendar Database

namespace Remote

/-- The record in the first row of a result. -/
def returned? (α : Type) [Recorded α] (result : QueryResult) : Option α :=
  result.rows.head?.bind fun row => row.record? α

/-! ## Placing a bid -/

section

variable (bid : PlaceBid) (now : Instant) (transaction : TransactionId)

/-- The call that marks the item of a bid as sold. -/
def mark : DatabaseCall :=
  .run (some transaction) .setItemStatus
    ([.whole bid.itemId, .itemStatus .sold].map Datum.stored)

/-- The call that records a bid. -/
def record : DatabaseCall :=
  .run (some transaction) .insertBid
    ([.whole bid.itemId, .whole bid.buyerId, .whole bid.price, .instant now].map Datum.stored)

/-- What comes of marking the item. -/
def marked : Except ServerError QueryResult → Except Failure Unit
  | .error error => .error (.ofServerError error)
  | .ok result => if result.affected = 0 then .error (.notFound (.item bid.itemId)) else .ok ()

/-- What comes of recording the bid. -/
def recorded : Except ServerError QueryResult → Except Failure Bid
  | .error error => .error (.ofServerError error)
  | .ok result =>
    match result.rows with
    | [] => .error (.notFound .requested)
    | row :: _ => (row.record? Bid).elim (.error (.internal .database)) .ok

/-- The statements of a bid: its item is marked before anything else is done, and then the bid is
recorded once, if a row was marked. -/
inductive BidStage (log : List Answered) : DatabaseCall → Prop where
  | mark (hfirst : ∀ call ∈ calls log, call = .database .begin) :
      BidStage log (mark bid transaction)
  | record (result : QueryResult)
      (hmarked : ⟨.database (Remote.mark bid transaction), .ok result⟩ ∈ log)
      (haffected : 1 ≤ result.affected)
      (honce : .database (record bid now transaction) ∉ calls log) :
      BidStage log (record bid now transaction)

/-- Why a bid fails while its transaction is open. -/
inductive BidFails : Answered → Failure → Prop where
  | unmarked {answer : Except ServerError QueryResult} {failure : Failure}
      (hfailed : marked bid answer = .error failure) :
      BidFails ⟨.database (mark bid transaction), answer⟩ failure
  | unrecorded {answer : Except ServerError QueryResult} {failure : Failure}
      (hfailed : recorded answer = .error failure) :
      BidFails ⟨.database (record bid now transaction), answer⟩ failure

/-- How a bid is placed. The failure of a step is reported even if the rollback fails as well. -/
def bidPlan : Plan Bid where
  Stage := BidStage bid now
  Fails := BidFails bid now
  Complete transaction log placed := ∃ result,
    ⟨.database (record bid now transaction), .ok result⟩ ∈ log ∧
      returned? Bid result = some placed
  worsen failure _ := failure
  key? := some (Cache.itemKey bid.itemId)

/-- The two writes of a bid and the end of their transaction. -/
def settle : Routine RemoteCall RemoteCall.Answer (Except Failure Bid) :=
  runStep (bidPlan bid now) transaction (mark bid transaction) (marked bid) fun _ =>
    runStep (bidPlan bid now) transaction (record bid now transaction) recorded fun placed =>
      conclude (bidPlan bid now) transaction placed

end

/-! What the calls to the store become. -/

section

variable {α β : Type}

theorem ofService_store (call : StoreCall) :
    ofService (Action.store call).run = Remote.answer (.store call) :=
  Routine.bind_done _

theorem ofService_andThen (first : Action α) (next : α → Action β) :
    ofService (first >>= next).run = (ofService first.run).bind fun
      | .error failure => .done (.error failure)
      | .ok value => ofService (next value).run := by
  refine (Routine.expand_bind Remote.answer first.run _).trans ?_
  refine congrArg (Routine.bind _) (funext fun outcome => ?_)
  cases outcome <;> rfl

theorem ofService_attempt (first : Action α) (next : Except Failure α → Action β) :
    ofService (Action.attempt first >>= next).run =
      (ofService first.run).bind fun outcome => ofService (next outcome).run := by
  refine (ofService_andThen (Action.attempt first) next).trans ?_
  have hattempt : ofService (Action.attempt first).run =
      (ofService first.run).bind fun outcome => .done (.ok outcome) :=
    Routine.expand_bind Remote.answer first.run _
  rw [hattempt, Routine.bind_assoc]
  rfl

end

theorem fetchFirst_run (α : Type) [Recorded α] (transaction? : Option TransactionId)
    (statement : Statement) (parameters : List Datum) :
    (Exchange.fetchFirst α transaction? statement parameters).run =
      .ask (.run transaction? statement (parameters.map Datum.stored)) fun
        | .error error => .done (.error (.ofServerError error))
        | .ok result => .done (match result.rows with
          | [] => .ok none
          | row :: _ => (row.record? α).elim (.error (.internal .database)) fun record =>
            .ok (some record)) := by
  refine congrArg (Routine.ask _) (funext fun answer => ?_)
  rcases answer with error | ⟨_ | ⟨row, rest⟩, affected⟩
  · rfl
  · rfl
  · change ExceptT.run (do return some (← Exchange.readable (row.record? α))) = .done
      ((row.record? α).elim (.error (.internal .database)) fun record => .ok (some record))
    cases row.record? α <;> rfl

theorem answer_begin : Remote.answer (.store .begin) = .ask (.database .begin) fun answer =>
    .done (answer.mapError Failure.ofServerError) := rfl

theorem answer_setItemStatusIn (bid : PlaceBid) (transaction : TransactionId) :
    Remote.answer (.store (.setItemStatusIn transaction bid.itemId .sold)) =
      .ask (.database (mark bid transaction)) fun answer => .done (marked bid answer) := by
  refine congrArg (Routine.ask _) (funext fun answer => ?_)
  rcases answer with error | ⟨rows, _ | affected⟩ <;> rfl

theorem answer_insertBidIn (bid : PlaceBid) (now : Instant) (transaction : TransactionId) :
    Remote.answer (.store (.insertBidIn transaction bid now)) =
      .ask (.database (record bid now transaction)) fun answer => .done (recorded answer) := by
  have hexchange : (exchange (.insertBidIn transaction bid now)).run =
      .ask (record bid now transaction) fun answer => .done (recorded answer) := by
    simp only [exchange, Exchange.fetchOne]
    refine (congrArg (fun routine => Routine.bind routine _) (fetchFirst_run Bid _ _ _)).trans ?_
    refine congrArg (Routine.ask _) (funext fun answer => ?_)
    rcases answer with error | ⟨_ | ⟨row, rest⟩, affected⟩
    · rfl
    · rfl
    · simp only [recorded]
      cases row.record? Bid <;> rfl
  rw [Remote.answer, Database.answer, hexchange]
  rfl

theorem ofService_rollback (bid : PlaceBid) (now : Instant) (transaction : TransactionId)
    (failure : Failure) :
    ofService ((do
      let _ ← Action.attempt (Action.store (.rollback transaction))
      throw failure : Action Bid).run) = rollBack (bidPlan bid now) transaction failure := by
  refine congrArg (Routine.ask _) (funext fun answer => ?_)
  cases answer <;> rfl

theorem ofService_commit (bid : PlaceBid) (now : Instant) (transaction : TransactionId)
    (placed : Bid) :
    ofService ((do
      Action.store (.commit transaction)
      Action.forget (Cache.itemKey bid.itemId)
      return placed : Action Bid).run) = conclude (bidPlan bid now) transaction placed := by
  refine congrArg (Routine.ask _) (funext fun answer => ?_)
  cases answer <;> rfl

theorem ofService_settle (bid : PlaceBid) (now : Instant) (transaction : TransactionId) :
    ofService (Command.settle transaction bid now).run =
      .ask (.database (mark bid transaction)) fun answer =>
        match marked bid answer with
        | .error failure => .done (.error failure)
        | .ok () => .ask (.database (record bid now transaction)) fun answer =>
          .done (recorded answer) := by
  refine (ofService_andThen _ _).trans ?_
  rw [ofService_store, answer_setItemStatusIn]
  refine congrArg (Routine.ask _) (funext fun answer => ?_)
  dsimp only [Routine.bind]
  cases marked bid answer with
  | error failure => rfl
  | ok => exact (ofService_store _).trans (answer_insertBidIn bid now transaction)

/-- What is sent when a bid is placed. -/
theorem ofService_placeBid (bid : PlaceBid) (now : Instant) :
    ofService (Command.placeBid bid now).run =
      match bid.validate with
      | .error failure => .done (.error failure)
      | .ok () => .ask (.database .begin) fun
        | .error error => .done (.error (.ofServerError error))
        | .ok transaction => settle bid now transaction := by
  unfold Command.placeBid
  refine (ofService_andThen _ _).trans ?_
  change Routine.bind (.done bid.validate) _ = _
  cases bid.validate with
  | error failure => rfl
  | ok =>
      refine (ofService_andThen _ _).trans ?_
      rw [ofService_store, answer_begin]
      refine congrArg (Routine.ask _) (funext fun answer => ?_)
      cases answer with
      | error error => rfl
      | ok transaction =>
          refine (ofService_attempt _ _).trans ?_
          rw [ofService_settle]
          refine congrArg (Routine.ask _) (funext fun answer => ?_)
          dsimp only
          cases marked bid answer with
          | error failure => exact ofService_rollback bid now transaction failure
          | ok =>
              refine congrArg (Routine.ask _) (funext fun answer => ?_)
              dsimp only [Routine.bind]
              cases recorded answer with
              | error failure => exact ofService_rollback bid now transaction failure
              | ok placed => exact ofService_commit bid now transaction placed

section

variable {bid : PlaceBid} {now : Instant}

theorem eq_of_marked {answer : Except ServerError QueryResult}
    (hmarked : marked bid answer = .ok ()) :
    ∃ result, answer = .ok result ∧ 1 ≤ result.affected := by
  cases answer with
  | error error => cases hmarked
  | ok result =>
      refine ⟨result, rfl, Nat.one_le_iff_ne_zero.mpr fun hnone => ?_⟩
      rw [marked, if_pos hnone] at hmarked
      cases hmarked

theorem eq_of_recorded {answer : Except ServerError QueryResult} {placed : Bid}
    (hrecorded : recorded answer = .ok placed) :
    ∃ result, answer = .ok result ∧ returned? Bid result = some placed := by
  rcases answer with error | ⟨_ | ⟨row, rest⟩, affected⟩
  · cases hrecorded
  · cases hrecorded
  · refine ⟨_, rfl, ?_⟩
    change row.record? Bid = some placed
    change (row.record? Bid).elim _ _ = _ at hrecorded
    cases hrow : row.record? Bid with
    | none => rw [hrow] at hrecorded; cases hrecorded
    | some read => rw [hrow] at hrecorded; cases hrecorded; rfl

theorem settle_fulfils (transaction : TransactionId) :
    (settle bid now transaction).Fulfils (Contract.ofLog (bidPlan bid now).Permits)
      (bidPlan bid now).Ended [⟨.database .begin, .ok transaction⟩] := by
  refine runStep_fulfils (.start transaction) ⟨_, _, rfl⟩ (.mark (by simp [calls]))
    (fun _ _ hfailed => .unmarked hfailed) fun answer _ hmarked hpending => ?_
  obtain ⟨result, rfl, haffected⟩ := eq_of_marked hmarked
  have honce : .database (record bid now transaction) ∉
      [RemoteCall.database .begin, .database (mark bid transaction)] := by
    simp [mark, record]
  refine runStep_fulfils hpending ⟨_, _, rfl⟩
    (.record result List.mem_concat_self haffected honce)
    (fun _ _ hfailed => .unrecorded hfailed) fun answer placed hrecorded hpending => ?_
  obtain ⟨result, rfl, hreturned⟩ := eq_of_recorded hrecorded
  exact conclude_fulfils hpending fun rest =>
    ⟨result, List.mem_append_left rest List.mem_concat_self, hreturned⟩

theorem placeBid_fulfils (bid : PlaceBid) (now : Instant) :
    (ofService (Command.placeBid bid now).run).Fulfils (Contract.ofLog (bidPlan bid now).Permits)
      (bidPlan bid now).Ended [] := by
  rw [ofService_placeBid]
  cases bid.validate with
  | error failure => exact .of_refused nofun
  | ok =>
      refine ⟨.begin rfl, fun answer => ?_⟩
      cases answer with
      | error error => exact .of_refused (by simp [Contract.ofLog])
      | ok transaction => exact settle_fulfils transaction

end

/-! ## Giving up a venue -/

/-- The truth value in the first row of a result. -/
def told? (result : QueryResult) : Option Bool :=
  result.rows.head?.bind fun row => row.flag? "exists"

section

variable (id : Int) (now : Instant) (transaction : TransactionId)

/-- The call that finds a venue and locks it. -/
def lock : DatabaseCall :=
  .run (some transaction) .lockVenue ([.whole id].map Datum.stored)

/-- The call that asks whether there are bids at a venue. -/
def inspect : DatabaseCall :=
  .run (some transaction) .venueHasBids ([.whole id].map Datum.stored)

/-- The call that marks a venue as given up. -/
def remove : DatabaseCall :=
  .run (some transaction) .softDeleteVenue ([.whole id, .instant now].map Datum.stored)

/-- What comes of locking the venue. -/
def locked : Except ServerError QueryResult → Except Failure Unit
  | .error error => .error (.ofServerError error)
  | .ok result =>
    match result.rows with
    | [] => .error (.notFound (.venue id))
    | row :: _ => (row.record? VenueId).elim (.error (.internal .database)) fun _ => .ok ()

/-- What comes of asking about bids. -/
def inspected : Except ServerError QueryResult → Except Failure Unit
  | .error error => .error (.ofServerError error)
  | .ok result =>
    match result.rows with
    | [] => .error (.notFound .requested)
    | row :: _ => (row.flag? "exists").elim (.error (.internal .database)) fun hasBids =>
      if hasBids then .error (.conflict (.venueHasBids id)) else .ok ()

/-- What comes of giving up the venue. -/
def removed : Except ServerError QueryResult → Except Failure Unit
  | .error error => .error (.ofServerError error)
  | .ok _ => .ok ()

/-- The statements of a deletion: the venue is locked before anything else is done, it is looked at
when a row was locked, and it is given up once, if there are no bids. -/
inductive VenueStage (log : List Answered) : DatabaseCall → Prop where
  | lock (hfirst : ∀ call ∈ calls log, call = .database .begin) :
      VenueStage log (lock id transaction)
  | inspect (result : QueryResult)
      (hlocked : ⟨.database (Remote.lock id transaction), .ok result⟩ ∈ log)
      (hrow : result.rows ≠ []) : VenueStage log (inspect id transaction)
  | remove (found answered : QueryResult)
      (hlocked : ⟨.database (Remote.lock id transaction), .ok found⟩ ∈ log)
      (hrow : found.rows ≠ [])
      (hinspected : ⟨.database (Remote.inspect id transaction), .ok answered⟩ ∈ log)
      (hfree : told? answered = some false)
      (honce : .database (remove id now transaction) ∉ calls log) :
      VenueStage log (remove id now transaction)

/-- Why a deletion fails while its transaction is open. -/
inductive VenueFails : Answered → Failure → Prop where
  | unlocked {answer : Except ServerError QueryResult} {failure : Failure}
      (hfailed : locked id answer = .error failure) :
      VenueFails ⟨.database (lock id transaction), answer⟩ failure
  | kept {answer : Except ServerError QueryResult} {failure : Failure}
      (hfailed : inspected id answer = .error failure) :
      VenueFails ⟨.database (inspect id transaction), answer⟩ failure
  | unremoved (error : ServerError) :
      VenueFails ⟨.database (remove id now transaction), .error error⟩ (.ofServerError error)

/-- How a venue is given up. A rollback that fails is reported in place of the failure before it. -/
def venuePlan : Plan Unit where
  Stage := VenueStage id now
  Fails := VenueFails id now
  Complete transaction log _ := ∃ result,
    ⟨.database (remove id now transaction), .ok result⟩ ∈ log
  worsen _ error := .ofServerError error
  key? := none

/-- The statements of a deletion and the end of their transaction. -/
def giveUp : Routine RemoteCall RemoteCall.Answer (Except Failure Unit) :=
  runStep (venuePlan id now) transaction (lock id transaction) (locked id) fun _ =>
    runStep (venuePlan id now) transaction (inspect id transaction) (inspected id) fun _ =>
      runStep (venuePlan id now) transaction (remove id now transaction) removed fun _ =>
        conclude (venuePlan id now) transaction ()

end

theorem inTransaction_run (exchange : TransactionId → Exchange Unit) :
    (Exchange.inTransaction exchange).run = .ask .begin fun
      | .error error => .done (.error (.ofServerError error))
      | .ok transaction => (exchange transaction).run.bind fun
        | .ok () => (Exchange.finish (.commit transaction) transaction).run
        | .error failure => .ask (.rollback transaction) fun
          | .ok () => .done (.error failure)
          | .error error => .ask (.abandon transaction) fun _ =>
            .done (.error (.ofServerError error)) := by
  refine congrArg (Routine.ask _) (funext fun answer => ?_)
  cases answer with
  | error error => rfl
  | ok transaction =>
      refine (Routine.bind_assoc (exchange transaction).run _ _).trans ?_
      refine congrArg (Routine.bind _) (funext fun outcome => ?_)
      cases outcome with
      | ok => rfl
      | error failure =>
          refine congrArg (Routine.ask _) (funext fun answer => ?_)
          cases answer <;> rfl

section

variable (id : Int) (now : Instant) (transaction : TransactionId)

theorem softDeleteVenue_run :
    (softDeleteVenue id now transaction).run =
      .ask (lock id transaction) fun answer =>
        match locked id answer with
        | .error failure => .done (.error failure)
        | .ok () => .ask (inspect id transaction) fun answer =>
          match inspected id answer with
          | .error failure => .done (.error failure)
          | .ok () => .ask (remove id now transaction) fun
            | .error error => .done (.error (.ofServerError error))
            | .ok _ => .done (.ok ()) := by
  unfold softDeleteVenue
  refine (congrArg (fun routine => Routine.bind routine _) (fetchFirst_run VenueId _ _ _)).trans ?_
  refine congrArg (Routine.ask _) (funext fun answer => ?_)
  rcases answer with error | ⟨_ | ⟨row, rest⟩, affected⟩
  · rfl
  · rfl
  · dsimp only [locked]
    cases row.record? VenueId with
    | none => rfl
    | some venue =>
        refine congrArg (Routine.ask _) (funext fun answer => ?_)
        rcases answer with error | ⟨_ | ⟨row, rest⟩, affected⟩
        · rfl
        · rfl
        · dsimp only [inspected, Routine.bind, ExceptT.bindCont, Except.mapError]
          cases row.flag? "exists" with
          | none => rfl
          | some hasBids =>
              cases hasBids with
              | true => rfl
              | false =>
                  refine congrArg (Routine.ask _) (funext fun answer => ?_)
                  cases answer <;> rfl

theorem ofDatabase_rollback (failure : Failure) :
    ofDatabase (.ask (.rollback transaction) fun
      | .ok () => .done (.error failure)
      | .error error => .ask (.abandon transaction) fun _ =>
        .done (.error (.ofServerError error))) =
      rollBack (venuePlan id now) transaction failure := by
  refine congrArg (Routine.ask _) (funext fun answer => ?_)
  cases answer <;> rfl

/-- What is sent when a venue is given up. -/
theorem answer_softDeleteVenue :
    Remote.answer (.store (.softDeleteVenue id now)) =
      .ask (.database .begin) fun
        | .error error => .done (.error (.ofServerError error))
        | .ok transaction => giveUp id now transaction := by
  have hexchange : Remote.answer (.store (.softDeleteVenue id now)) =
      ofDatabase (Exchange.inTransaction (softDeleteVenue id now)).run := rfl
  rw [hexchange, inTransaction_run]
  refine congrArg (Routine.ask _) (funext fun answer => ?_)
  cases answer with
  | error error => rfl
  | ok transaction =>
      dsimp only [Routine.bind]
      rw [softDeleteVenue_run]
      refine congrArg (Routine.ask _) (funext fun answer => ?_)
      dsimp only [Routine.bind]
      cases locked id answer with
      | error failure => exact ofDatabase_rollback id now transaction failure
      | ok =>
          refine congrArg (Routine.ask _) (funext fun answer => ?_)
          dsimp only [Routine.bind]
          cases inspected id answer with
          | error failure => exact ofDatabase_rollback id now transaction failure
          | ok =>
              refine congrArg (Routine.ask _) (funext fun answer => ?_)
              cases answer with
              | error error => exact ofDatabase_rollback id now transaction (.ofServerError error)
              | ok result =>
                  refine congrArg (Routine.ask _) (funext fun answer => ?_)
                  cases answer <;> rfl

end

section

variable {id : Int} {now : Instant}

theorem eq_of_locked {answer : Except ServerError QueryResult}
    (hlocked : locked id answer = .ok ()) :
    ∃ result, answer = .ok result ∧ result.rows ≠ [] := by
  rcases answer with error | ⟨_ | ⟨row, rest⟩, affected⟩
  · cases hlocked
  · cases hlocked
  · exact ⟨_, rfl, List.cons_ne_nil row rest⟩

theorem eq_of_inspected {answer : Except ServerError QueryResult}
    (hinspected : inspected id answer = .ok ()) :
    ∃ result, answer = .ok result ∧ told? result = some false := by
  rcases answer with error | ⟨_ | ⟨row, rest⟩, affected⟩
  · cases hinspected
  · cases hinspected
  · refine ⟨_, rfl, ?_⟩
    change row.flag? "exists" = some false
    change (row.flag? "exists").elim _ _ = _ at hinspected
    generalize row.flag? "exists" = told at hinspected ⊢
    rcases told with _ | _ | _
    · cases hinspected
    · rfl
    · cases hinspected

theorem giveUp_fulfils (transaction : TransactionId) :
    (giveUp id now transaction).Fulfils (Contract.ofLog (venuePlan id now).Permits)
      (venuePlan id now).Ended [⟨.database .begin, .ok transaction⟩] := by
  refine runStep_fulfils (.start transaction) ⟨_, _, rfl⟩ (.lock (by simp [calls]))
    (fun _ _ hfailed => .unlocked hfailed) fun answer _ hlocked hpending => ?_
  obtain ⟨found, rfl, hrow⟩ := eq_of_locked hlocked
  refine runStep_fulfils hpending ⟨_, _, rfl⟩ (.inspect found List.mem_concat_self hrow)
    (fun _ _ hfailed => .kept hfailed) fun answer _ hinspected hpending => ?_
  obtain ⟨result, rfl, hfree⟩ := eq_of_inspected hinspected
  have honce : .database (remove id now transaction) ∉ [RemoteCall.database .begin,
      .database (lock id transaction), .database (inspect id transaction)] := by
    simp [lock, inspect, remove]
  refine runStep_fulfils hpending ⟨_, _, rfl⟩ (.remove found result
    (List.mem_append_left _ List.mem_concat_self) hrow List.mem_concat_self hfree honce)
    (fun answer _ hfailed => ?_) fun answer _ hremoved hpending => ?_
  · cases answer with
    | error error => cases hfailed; exact .unremoved error
    | ok result => cases hfailed
  · cases answer with
    | error error => cases hremoved
    | ok result =>
        exact conclude_fulfils hpending fun rest =>
          ⟨result, List.mem_append_left rest List.mem_concat_self⟩

theorem softDeleteVenue_fulfils (id : Int) (now : Instant) :
    (Remote.answer (.store (.softDeleteVenue id now))).Fulfils
      (Contract.ofLog (venuePlan id now).Permits) (venuePlan id now).Ended [] := by
  rw [answer_softDeleteVenue]
  refine ⟨.begin rfl, fun answer => ?_⟩
  cases answer with
  | error error => exact .of_refused (by simp [Contract.ofLog])
  | ok transaction => exact giveUp_fulfils transaction

end

/-! ## With any server -/

/-- Whatever a server and a cache answer, a bid is placed and a venue is given up by their plans:
no statement runs outside the transaction that was begun for it or before the ones it depends on,
only a complete transaction is committed, any other is rolled back, and success is reported, and
the item of a bid forgotten, only after a commit that has succeeded. -/
theorem writes_keep_to_plans {σ : Type} (server : (call : RemoteCall) → σ → call.Answer × σ)
    (state : σ) (bid : PlaceBid) (id : Int) (now : Instant) :
    (bidPlan bid now).KeptBy (ofService (Command.placeBid bid now).run) server state ∧
      (venuePlan id now).KeptBy (Remote.answer (.store (.softDeleteVenue id now))) server state :=
  ⟨.of_fulfils (placeBid_fulfils bid now) server state,
    .of_fulfils (softDeleteVenue_fulfils id now) server state⟩

-- The bid is refused and so is the rollback, and it is the refusal of the bid that is reported.
example :
    let server : (call : RemoteCall) → List RemoteCall → call.Answer × List RemoteCall
      | .database .begin, sent => (.ok 7, sent ++ [.database .begin])
      | .database (.run transaction? .setItemStatus parameters), sent =>
        (.ok ⟨[], 1⟩, sent ++ [.database (.run transaction? .setItemStatus parameters)])
      | .database call, sent => (.error ⟨foreignKeyViolation, "no buyer"⟩, sent ++ [.database call])
      | .cache call, sent => (.error .unavailable, sent ++ [.cache call])
    let bid : PlaceBid := ⟨2, 1, 100⟩
    (ofService (Command.placeBid bid default).run).run server [] =
      (.error (.conflict (.stated "no buyer")), [.database .begin, .database (mark bid 7),
        .database (record bid default 7), .database (.rollback 7), .database (.abandon 7)]) := by
  rfl

end Remote

end FishMarket
