import FishMarket.Command
import FishMarket.Proofs.Market.Consistency
import FishMarket.Proofs.Market.Lifecycle
import FishMarket.Proofs.Service.Weather

/-! # Actions that fail

An action that fails has done nothing to what is on record. A write that the store refuses leaves
nothing behind but an id that was given out, and what a transaction has staged is gone once the
transaction is closed. Nothing of this depends on what the cache answers, so it is said of routines
that are carried out alone with a cache that may answer anything.
-/

namespace FishMarket

open Calendar

variable {α β ε : Type}

/-! ## Markets that are spared -/

namespace Market

variable {before market : Market} {call : StoreCall} {transaction : TransactionId}

/-- Whether a market differs from one before it in nothing but its counters. The order to refuse a
bid may have been carried out. -/
structure Spared (before after : Market) : Prop where
  entities : after.entities = before.entities
  staged : ∀ transaction, after.staged.find? transaction = before.staged.find? transaction
  lastId_le : before.lastId ≤ after.lastId
  refuses : after.refuseNextBid = true → before.refuseNextBid = true

theorem Spared.refl (market : Market) : market.Spared market :=
  ⟨rfl, fun _ => rfl, Int.le_refl _, id⟩

theorem spared_takeId (market : Market) : market.Spared market.takeId :=
  ⟨rfl, fun _ => rfl, Int.le_add_of_nonneg_right Int.one_nonneg, id⟩

theorem answer_of_reads (market : Market) (hreads : call.reads = true) :
    (market.answer call).2 = market := by
  cases call <;> first | rfl | cases hreads

/-- A plain call that fails has given out an id at most. -/
theorem spared_of_error (hplain : call.IsPlain) {failure : Failure}
    (herror : (market.answer call).1 = .error failure) : market.Spared (market.answer call).2 := by
  cases call with
  | createAuction new now =>
      simp only [answer, createAuction] at herror ⊢
      split at herror
      next => cases herror
      next hmissing =>
        rw [if_neg hmissing]
        exact market.spared_takeId
  | createItem new now =>
      simp only [answer, createItem] at herror ⊢
      split at herror
      next => cases herror
      next hmissing =>
        rw [if_neg hmissing]
        exact market.spared_takeId
  | softDeleteVenue id now =>
      simp only [answer, softDeleteVenue] at herror ⊢
      split
      next => exact .refl market
      next hfound =>
        split
        next => exact .refl market
        next hfree =>
          rw [if_neg hfound, if_neg hfree] at herror
          cases herror
  | deleteAuction id =>
      rw [answer] at herror ⊢
      rcases market.deleteAuction_cases id with ⟨failure, heq⟩ | heq
      · rw [heq]
        exact .refl market
      · rw [heq] at herror
        cases herror
  | buyerTotals => exact .refl market
  | begin => exact absurd rfl hplain.1
  | commit | rollback | abandon | setItemStatusIn | insertBidIn => cases hplain.2
  | _ => cases herror

/-! A transaction that was opened is all that a settlement adds before it is committed. -/

/-- Whether a market differs from one before it in nothing but its counters and what is staged with
a new transaction. -/
structure Drafted (before : Market) (transaction : TransactionId) (after : Market) : Prop where
  isNew : before.staged.find? transaction = none
  entities : after.entities = before.entities
  staged : ∀ other, other ≠ transaction →
    after.staged.find? other = before.staged.find? other
  lastId_le : before.lastId ≤ after.lastId
  refuses : after.refuseNextBid = true → before.refuseNextBid = true

theorem Drafted.begin (hhandled : market.Handled) :
    market.Drafted market.begin.1 market.begin.2 where
  isNew := hhandled.find?_next
  entities := rfl
  staged other hother := by
    simp only [Market.begin, Table.find?_insert]
    exact if_neg hother
  lastId_le := Int.le_refl _
  refuses := id

namespace Drafted

theorem stage (hdrafted : before.Drafted transaction market) (write : StagedWrite) :
    before.Drafted transaction (market.stage transaction write) where
  isNew := hdrafted.isNew
  entities := hdrafted.entities
  staged other hother := by
    simp only [Market.stage, Table.find?_modify]
    rw [if_neg hother]
    exact hdrafted.staged other hother
  lastId_le := hdrafted.lastId_le
  refuses := hdrafted.refuses

theorem takeId (hdrafted : before.Drafted transaction market) :
    before.Drafted transaction market.takeId :=
  { hdrafted with
    lastId_le := Int.le_trans hdrafted.lastId_le (Int.le_add_of_nonneg_right Int.one_nonneg) }

theorem setItemStatusIn (hdrafted : before.Drafted transaction market) (id : Int)
    (status : ItemStatus) :
    before.Drafted transaction (market.setItemStatusIn transaction id status).2 := by
  unfold Market.setItemStatusIn
  split
  next => exact hdrafted.stage _
  next => exact hdrafted

theorem insertBidIn (hdrafted : before.Drafted transaction market) (place : PlaceBid)
    (now : Instant) :
    before.Drafted transaction (market.insertBidIn transaction place now).2 := by
  unfold Market.insertBidIn
  split
  next => exact { hdrafted with refuses := nofun }
  next =>
    split
    next => exact hdrafted.takeId.stage _
    next => exact hdrafted

/-- When the transaction is closed nothing of it is left. -/
theorem close (hdrafted : before.Drafted transaction market) :
    before.Spared (market.close transaction) where
  entities := hdrafted.entities
  staged other := by
    simp only [Market.close, Table.find?_erase]
    split
    next hsame => rw [hsame, hdrafted.isNew]
    next hother => exact hdrafted.staged other hother
  lastId_le := hdrafted.lastId_le
  refuses := hdrafted.refuses

end Drafted

end Market

/-! ## Routines that are carried out alone -/

namespace ServiceRoutine

/-- Whether a routine that is carried out alone ends with a value and a market as they should be,
whatever the cache answers. -/
def Ensures (goal : α → Market → Prop) : ServiceRoutine α → Market → Prop
  | .done value, market => goal value market
  | .ask (.store call) next, market =>
    Ensures goal (next (market.answer call).1) (market.answer call).2
  | .ask (.cache _) next, market => ∀ answer, Ensures goal (next answer) market

namespace Ensures

variable {goal : α → Market → Prop} {routine : ServiceRoutine α} {market : Market}

theorem mono {goal' : α → Market → Prop} (hensures : routine.Ensures goal market)
    (hgoal : ∀ value after, goal value after → goal' value after) :
    routine.Ensures goal' market := by
  induction routine generalizing market with
  | done value => exact hgoal value market hensures
  | ask call next ih =>
      cases call with
      | store call => exact ih _ hensures
      | cache call => exact fun answer => ih answer (hensures answer)

theorem bind {goal : β → Market → Prop} {next : α → ServiceRoutine β}
    (hfirst : routine.Ensures (fun value between => (next value).Ensures goal between) market) :
    Ensures goal (routine.bind next) market := by
  induction routine generalizing market with
  | done value => exact hfirst
  | ask call rest ih =>
      cases call with
      | store call => exact ih _ hfirst
      | cache call => exact fun answer => ih answer (hfirst answer)

theorem store {call : StoreCall} {next : call.Answer → ServiceRoutine α} {reply : call.Answer}
    {after : Market} (hanswer : market.answer call = (reply, after))
    (hnext : (next reply).Ensures goal after) : Ensures goal (.ask (.store call) next) market := by
  unfold Ensures
  rw [hanswer]
  exact hnext

/-- Whoever only looks leaves the market as it was. -/
theorem of_reads (hreads : routine.Asks ServiceCall.IsReading)
    (hgoal : ∀ value, goal value market) : routine.Ensures goal market := by
  induction routine with
  | done value => exact hgoal value
  | ask call next ih =>
      cases call with
      | store call =>
          change Ensures goal (next (market.answer call).1) (market.answer call).2
          rw [market.answer_of_reads hreads.1]
          exact ih _ (hreads.2 _)
      | cache call => exact fun answer => ih answer (hreads.2 answer)

/-- What a routine ensures comes about in any weather. -/
theorem run {exposed : Exposed} (hensures : routine.Ensures goal exposed.market)
    (forecast : Forecast) :
    goal (routine.run (Exposed.answer forecast) exposed).1
      (routine.run (Exposed.answer forecast) exposed).2.market := by
  induction routine generalizing exposed with
  | done value => exact hensures
  | ask call next ih =>
      cases call with
      | store call => exact ih _ hensures
      | cache call =>
          have hsame : (exposed.answer forecast (.cache call)).2.market = exposed.market :=
            Exposed.market_answer_cache call
          exact ih _ (hsame ▸ hensures _)

end Ensures

end ServiceRoutine

open ServiceRoutine (Ensures)

/-! ## Actions that spare the market when they fail -/

/-- An action, or what else may end with a failure. -/
abbrev Attempt (ε α : Type) : Type :=
  ExceptT ε (Routine ServiceCall ServiceCall.Answer) α

namespace Attempt

/-- Whether an attempt that fails has done nothing to what is on record. -/
def Spares (attempt : Attempt ε α) (market : Market) : Prop :=
  Ensures (fun outcome after => outcome.isOk = true ∨ market.Spared after) attempt.run market

/-- Whether an attempt does not fail. -/
def Succeeds (attempt : Attempt ε α) (market : Market) : Prop :=
  Ensures (fun outcome _ => outcome.isOk = true) attempt.run market

variable {market : Market} {first : Attempt ε α} {next : α → Attempt ε β}

theorem Succeeds.spares {attempt : Attempt ε α} (hsucceeds : attempt.Succeeds market) :
    attempt.Spares market :=
  hsucceeds.mono fun _ _ => .inl

theorem Succeeds.returned (value : α) : Succeeds (pure value : Attempt ε α) market := rfl

theorem Succeeds.andThen
    (hfirst : Ensures (fun outcome between => outcome.isOk = true ∧
      ∀ value, (next value).Succeeds between) first.run market) :
    Succeeds (first >>= next) market := by
  apply Ensures.bind
  refine hfirst.mono fun outcome between ⟨hok, hnext⟩ => ?_
  cases outcome with
  | ok value => exact hnext value
  | error failure => cases hok

namespace Spares

theorem of_reads {attempt : Attempt ε α} (hreads : attempt.run.Asks ServiceCall.IsReading) :
    attempt.Spares market :=
  Ensures.of_reads hreads fun _ => .inr (.refl market)

theorem thrown (failure : ε) : Spares (throw failure : Attempt ε α) market :=
  .inr (.refl market)

theorem checked {p : Prop} [Decidable p] {failure : ε} {next : PUnit → Attempt ε α}
    (hnext : (next ⟨⟩).Spares market) :
    Spares (if p then throw failure >>= next else next ⟨⟩) market := by
  split
  next => exact thrown failure
  next => exact hnext

/-- What is looked up first makes no difference to the market. -/
theorem after_reading (hreads : first.run.Asks ServiceCall.IsReading)
    (hnext : ∀ value, (next value).Spares market) : Spares (first >>= next) market := by
  apply Ensures.bind
  refine .of_reads hreads fun outcome => ?_
  cases outcome with
  | ok value => exact hnext value
  | error failure => exact .inr (.refl market)

/-- What follows must not fail any more once something has been written. -/
theorem before_success (hfirst : first.Spares market)
    (hnext : ∀ value between, (next value).Succeeds between) : Spares (first >>= next) market := by
  apply Ensures.bind
  refine hfirst.mono fun outcome between hspared => ?_
  cases outcome with
  | ok value => exact (hnext value between).mono fun _ _ => .inl
  | error failure => exact .inr (hspared.resolve_left nofun)

/-- A plain write is the last word. -/
theorem store {call : StoreCall} (hplain : call.IsPlain) : Spares (Action.store call) market := by
  change _ ∨ _
  cases hreply : (market.answer call).1 with
  | ok value => exact .inl rfl
  | error failure => exact .inr (Market.spared_of_error hplain hreply)

end Spares

theorem Succeeds.forget (key : String) : Succeeds (Action.forget key) market := fun _ => rfl

theorem Succeeds.forM {values : List α} {next : α → Attempt ε PUnit}
    (hnext : ∀ value between, (next value).Succeeds between) :
    Succeeds (values.forM next) market := by
  induction values generalizing market with
  | nil => rfl
  | cons value rest ih => exact .andThen ((hnext value market).mono fun _ _ hok => ⟨hok, fun _ => ih⟩)

end Attempt

open Attempt (Spares Succeeds)

/-! ## Commands -/

namespace Command

variable {market : Market}

theorem createVenue_spares (venue : NewVenue) (now : Instant) :
    Spares (createVenue venue now) market := by
  unfold createVenue
  exact .checked (.store ⟨nofun, rfl⟩)

theorem deleteVenue_spares (id : Int) (now : Instant) : Spares (deleteVenue id now) market :=
  .store ⟨nofun, rfl⟩

theorem createAuction_spares (auction : NewAuction) (now : Instant) :
    Spares (createAuction auction now) market := by
  unfold createAuction
  extract_lets create checkTimes
  have hcreate : Spares (create ()) market :=
    .after_reading (Action.lookup_asks _ (Action.store_asks rfl)) fun _ => .store ⟨nofun, rfl⟩
  have htimes : Spares (checkTimes ()) market := by
    unfold checkTimes
    split
    next => exact .checked hcreate
    next => exact hcreate
  split
  next => exact .checked htimes
  next => exact htimes

theorem updateAuctionStatus_spares (id : Int) (status : String) (now : Instant) :
    Spares (updateAuctionStatus id status now) market := by
  refine .after_reading (.ended _) fun status => ?_
  refine .after_reading (Action.lookup_asks _ (Action.store_asks rfl)) fun current => ?_
  refine .after_reading (.ended _) fun _ => ?_
  -- if nothing is written, all that is left is to look why
  rcases market.writeAuctionStatus_cases id status now with heq | ⟨written, heq⟩
  · have hanswer : market.answer (.updateAuctionStatus id status now) = (.ok none, market) := by
      rw [Market.answer, heq]
    refine Ensures.store hanswer (Spares.after_reading ?_ fun _ => .thrown _)
    exact Action.lookup_asks _ (Action.store_asks rfl)
  · have hanswer : (market.answer (.updateAuctionStatus id status now)).1 = .ok (some written) := by
      rw [Market.answer, heq]
    exact Ensures.store (Prod.ext hanswer rfl) (.inl rfl)

theorem deleteAuction_spares (id : Int) : Spares (deleteAuction id) market := by
  refine .after_reading (Action.store_asks rfl) fun listings => ?_
  refine .before_success (.store ⟨nofun, rfl⟩) fun _ _ => ?_
  exact .forM fun listing _ => .forget _

theorem createItem_spares (item : NewItem) (now : Instant) :
    Spares (createItem item now) market := by
  unfold createItem
  refine .checked (.checked (.checked ?_))
  refine .after_reading (Action.lookup_asks _ (Action.store_asks rfl)) fun _ => ?_
  refine .after_reading (Action.lookup_asks _ (Action.store_asks rfl)) fun _ => ?_
  exact .store ⟨nofun, rfl⟩

theorem updateItemStatus_spares (id : Int) (status : String) :
    Spares (updateItemStatus id status) market := by
  refine .after_reading (.ended _) fun status => ?_
  refine .after_reading (Action.lookup_asks _ (Action.store_asks rfl)) fun current => ?_
  refine .checked ?_
  rcases market.updateItemStatus_cases id status with heq | ⟨written, heq⟩
  · have hanswer : market.answer (.updateItemStatus id status) = (.ok none, market) := by
      rw [Market.answer, heq]
    refine Ensures.store hanswer (Spares.after_reading ?_ fun _ => .thrown _)
    exact Action.lookup_asks _ (Action.store_asks rfl)
  · have hanswer : (market.answer (.updateItemStatus id status)).1 = .ok (some written) := by
      rw [Market.answer, heq]
    exact Ensures.store (Prod.ext hanswer rfl) fun _ => .inl rfl

/-- A settlement that fails closes its transaction. -/
theorem placeBid_spares (place : PlaceBid) (now : Instant) (hconsistent : market.Consistent) :
    Spares (placeBid place now) market := by
  unfold placeBid
  cases place.validate with
  | error failure => exact .inr (.refl market)
  | ok =>
      let opened := market.begin.2
      let transaction := market.begin.1
      have hopened : market.Drafted transaction opened := .begin hconsistent.handled
      refine Ensures.store rfl ?_
      have hmarked := hopened.setItemStatusIn place.itemId .sold
      rcases hmark : opened.setItemStatusIn transaction place.itemId .sold with
        ⟨failure | _, marked⟩
      · rw [hmark] at hmarked
        exact Ensures.store hmark (Ensures.store rfl (.inr hmarked.close))
      · rw [hmark] at hmarked
        refine Ensures.store hmark ?_
        have hstaged := hmarked.insertBidIn place now
        rcases hinsert : marked.insertBidIn transaction place now with ⟨failure | bid, staged⟩
        · rw [hinsert] at hstaged
          exact Ensures.store hinsert (Ensures.store rfl (.inr hstaged.close))
        · rw [hinsert] at hstaged
          refine Ensures.store hinsert ?_
          rcases staged.commit_cases transaction with ⟨failure, heq⟩ | ⟨-, heq⟩
          · exact Ensures.store heq (.inr hstaged.close)
          · exact Ensures.store heq fun _ => .inl rfl

end Command

/-! ## Queries -/

namespace Query

variable {market : Market}

/-- An auction that is on record can be completed, and is on record afterwards. -/
theorem reconcile_ensures {auction : Auction} (now : Instant)
    (hfound : market.auctions.contains auction.id = true) :
    Ensures (fun outcome after => outcome.isOk = true ∧
      ∀ id, after.auctions.contains id = market.auctions.contains id)
      (reconcile auction now).run market := by
  unfold reconcile
  split
  next =>
    obtain ⟨row, hrow⟩ := Table.contains_iff.mp hfound
    have hanswer : market.answer (.completeAuction auction.id now) =
        (.ok (some (row.completed now)), { market with
          auctions := market.auctions.modify auction.id (·.completed now) }) := by
      rw [Market.answer, Market.completeAuction_eq, hrow]
      rfl
    exact Ensures.store hanswer ⟨rfl, fun id => Table.contains_modify _ _ _ _⟩
  next => exact ⟨rfl, fun _ => rfl⟩

theorem getAuction_spares (id : Int) (now : Instant) (hconsistent : market.Consistent) :
    Spares (getAuction id now) market := by
  apply Ensures.bind
  cases hfound : market.auctions.find? id with
  | none =>
      refine Ensures.store (Prod.ext (congrArg Except.ok hfound) rfl) ?_
      exact .inr (.refl market)
  | some auction =>
      refine Ensures.store (Prod.ext (congrArg Except.ok hfound) rfl) ?_
      have hid : auction.id = id := hconsistent.filed.auctions id auction hfound
      refine (reconcile_ensures now ?_).mono fun _ _ hok => .inl hok.1
      exact Table.contains_iff.mpr ⟨auction, hid ▸ hfound⟩

/-- Auctions that are all on record are completed one after the other. -/
theorem reconcileEach_succeeds {auctions : List Auction} (now : Instant)
    (hfound : ∀ auction ∈ auctions, market.auctions.contains auction.id = true) :
    Succeeds (auctions.mapM fun auction => reconcile auction now) market := by
  induction auctions generalizing market with
  | nil => rfl
  | cons auction rest ih =>
      obtain ⟨hhead, hrest⟩ := List.forall_mem_cons.mp hfound
      rw [List.mapM_cons]
      refine .andThen ((reconcile_ensures now hhead).mono fun _ between ⟨hok, hkept⟩ =>
        ⟨hok, fun read => ?_⟩)
      have hrest' : ∀ other ∈ rest, between.auctions.contains other.id = true := by
        intro other hmem
        rw [hkept]
        exact hrest other hmem
      exact .andThen ((ih hrest').mono fun _ _ hok => ⟨hok, fun _ => .returned _⟩)

theorem getAllAuctions_succeeds (now : Instant) (hconsistent : market.Consistent) :
    Succeeds (getAllAuctions now) market := by
  refine reconcileEach_succeeds now fun auction hmem => ?_
  obtain ⟨id, hfound⟩ := Table.mem_values_iff.mp (List.mem_mergeSort.mp hmem)
  rw [hconsistent.filed.auctions id auction hfound]
  exact Table.contains_iff.mpr ⟨auction, hfound⟩

end Query

end FishMarket
