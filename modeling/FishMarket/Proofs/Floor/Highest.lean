import FishMarket.Proofs.Bid
import FishMarket.Proofs.Floor.Ledger
import FishMarket.Proofs.Floor.Tasks
import FishMarket.Proofs.Http.Errands

/-! # The highest bid

The ledger only grows, so the highest price on an item never falls. A bid gets its id when it is
staged and its place in the ledger when it is committed, and at the same price the smaller id wins.
So a bid that is committed late may displace another one of the same price, but only if both were
staged at the same time.
-/

namespace FishMarket

open Calendar
open Http (BidRequest)

/-! ## Staged bids -/

namespace Market

/-- A bid that is staged gets the next id. -/
theorem id_of_insertBidIn {market : Market} {transaction : TransactionId} {place : PlaceBid}
    {now : Instant} {bid : Bid}
    (hstaged : (market.insertBidIn transaction place now).1 = .ok bid) :
    bid.id = market.nextId := by
  unfold insertBidIn at hstaged
  split at hstaged
  next => cases hstaged
  next =>
    split at hstaged
    next =>
      obtain rfl := Except.ok.inj hstaged
      rfl
    next => cases hstaged

/-- The bids in the ledger have ids that were given out. -/
theorem Consistent.bid_lt_nextId {market : Market} (hconsistent : market.Consistent) {bid : Bid}
    (hmem : bid ∈ market.ledger) : bid.id < market.nextId := by
  have hids : bid.id ∈ market.ids := by
    simp only [ids, entityIds, List.mem_append]
    exact .inl (.inr (List.mem_map_of_mem hmem))
  exact Int.lt_add_one_of_le (hconsistent.numbered.within bid.id hids).2

theorem mem_bidsOn {market : Market} {id : Int} {bid : Bid} :
    bid ∈ market.bidsOn id ↔ bid ∈ market.ledger ∧ bid.itemId = id := by
  simp [bidsOn]

theorem bidsOn_append {market after : Market} {later : List Bid}
    (hledger : after.ledger = market.ledger ++ later) (id : Int) :
    after.bidsOn id = market.bidsOn id ++ later.filter fun bid => bid.itemId = id := by
  rw [bidsOn, hledger, List.filter_append]
  rfl

end Market

namespace Settlement

variable {phase : Settlement} {call : ServiceCall} {service : Service} {transaction : TransactionId}
  {bid : Bid}

/-- A call after which a bid is staged has just staged it, under the next id. -/
theorem Admits.staged (hadmits : Admits phase call) (reception : Reception) :
    let reply := service.receive call reception
    phase.after call reply.1 = .staged transaction bid →
      bid.id = service.market.nextId ∧ reply.2.market.ledger = service.market.ledger := by
  intro reply hstaged
  rcases hadmits.cases with ⟨rfl, hplain⟩ | ⟨place, now, hplaces⟩
  · cases (after_plain hplain reply.1).symm.trans hstaged
  · cases hplaces with
    | begin | mark | commit | rollback | forget =>
        generalize reply.1 = answer at hstaged
        cases answer <;> cases hstaged
    | stage other =>
        cases reception with
        | refused failure => cases hstaged
        | answered =>
            have hchange := service.market.insertBidIn_change other place now
            refine ⟨?_, hchange.ledger_eq⟩
            have hreply : reply.1 = (service.market.insertBidIn other place now).1 := rfl
            cases hanswer : reply.1 with
            | error failure =>
                rw [hanswer] at hstaged
                cases hstaged
            | ok staged =>
                rw [hanswer] at hstaged
                cases hstaged
                exact Market.id_of_insertBidIn (hreply.symm.trans hanswer)

/-- The ledger grows only when a staged bid is settled, and then by this bid. -/
theorem Admits.ledger_cases (hadmits : Admits phase call) (hfits : service.market.Fits phase)
    (reception : Reception) :
    let reply := service.receive call reception
    reply.2.market.ledger = service.market.ledger ∨
      ∃ transaction bid, phase = .staged transaction bid ∧
        phase.after call reply.1 = .settled bid ∧
        reply.2.market.ledger = service.market.ledger ++ [bid] := by
  intro reply
  rcases hadmits.cases with ⟨-, hplain⟩ | ⟨place, now, hplaces⟩
  · exact .inl (change_of_plain hplain service reception).ledger_eq
  · obtain ⟨hstride, -⟩ := hplaces.stride hfits reception
    cases hstride with
    | hidden hentities => exact .inl (congrArg Market.Entities.ledger hentities)
    | forgets _ _ _ hmarket => exact .inl (congrArg Market.ledger hmarket)
    | settles transaction bid hphase _ hservice _ _ hafter =>
        refine .inr ⟨transaction, bid, hphase, hafter, ?_⟩
        subst hphase
        exact (congrArg (fun after => after.market.ledger) hservice).trans hfits.ledger_committed

end Settlement

section

variable {Errand : Type} [Trade Errand]

/-! ## Bids on one item, one after the other -/

/-- Whether a task is under way and has staged a bid on an item. -/
def Task.IsBidding (task : Task Errand) (id : Int) : Prop :=
  task.dropped = false ∧ task.result? = none ∧
    ∃ bid, task.course.staged? = some bid ∧ bid.itemId = id

namespace Floor

/-- Whether no two tasks under way have both staged a bid on an item. -/
def TakesTurns (floor : Floor Errand) (id : Int) : Prop :=
  ∀ (first second : Nat) (task other : Task Errand), floor.tasks[first]? = some task →
    floor.tasks[second]? = some other → task.IsBidding id → other.IsBidding id → first = second

/-- Whether the task with a number is about to commit a bid. -/
def IsCommitting (floor : Floor Errand) (index : Nat) (bid : Bid) : Prop :=
  ∃ task transaction, floor.tasks[index]? = some task ∧ task.dropped = false ∧
    task.result? = none ∧ task.course.phase = .staged transaction bid

variable {floor : Floor Errand} {move : Move Errand} {index : Nat} {id : Int} {bid : Bid}

theorem IsCommitting.isBidding (hcommitting : floor.IsCommitting index bid)
    (horderly : Orderly floor.service floor.tasks) :
    ∃ task, floor.tasks[index]? = some task ∧ task.IsBidding bid.itemId := by
  obtain ⟨task, transaction, htask, hrunning, hpending, hphase⟩ := hcommitting
  have hreflects := (horderly.sound task (List.mem_of_getElem? htask)).faithful.reflects
  exact ⟨task, htask, hrunning, hpending, bid,
    hreflects.2 bid (congrArg Settlement.bid? hphase), rfl⟩

/-- A bid that is about to be committed was so before a move, or the move has staged it. -/
theorem isCommitting_take (horderly : Orderly floor.service floor.tasks)
    (hcommitting : (floor.take move).IsCommitting index bid) :
    floor.IsCommitting index bid ∨
      bid.id = floor.market.nextId ∧ (floor.take move).market.ledger = floor.market.ledger := by
  obtain ⟨task, transaction, htask, hrunning, hpending, hphase⟩ := hcommitting
  rcases task_cases htask with hsame | ⟨errand, -, -, rfl⟩ |
    ⟨errand, acts, call, next, reception, rfl, hserved, rfl⟩ | ⟨former, -, -, rfl⟩
  · exact .inl ⟨task, transaction, hsame, hrunning, hpending, hphase⟩
  · cases hphase
  · rw [Course.phase_append] at hphase
    have hsound := (horderly.sound _ (List.mem_of_getElem? hserved)).running rfl
    have hadmits := Trade.admits errand _ call hsound.promise.1
    obtain ⟨hid, hledger⟩ := hadmits.staged reception hphase
    have hservice := (take_serve hserved reception).1
    exact .inr ⟨hid, (congrArg (fun service => service.market.ledger) hservice).trans hledger⟩
  · cases hrunning

/-- A move leaves the ledger as it is, or it commits a bid, which is then committed no more. -/
theorem ledger_take (horderly : Orderly floor.service floor.tasks) (move : Move Errand) :
    (floor.take move).market.ledger = floor.market.ledger ∨
      ∃ index bid, floor.IsCommitting index bid ∧
        (∀ other, ¬ (floor.take move).IsCommitting index other) ∧
        (floor.take move).market.ledger = floor.market.ledger ++ [bid] := by
  cases hact : floor.act? move with
  | none =>
      rcases floor.take_cases move with ⟨act, hsome, -⟩ | ⟨-, hentities⟩
      · cases hact.symm.trans hsome
      · exact .inl (congrArg Market.Entities.ledger hentities)
  | some act =>
      obtain ⟨index, errand, acts, next, rfl, htask, hbefore, hservice, hafter⟩ := act_cases hact
      obtain ⟨call, reception, before⟩ := act
      obtain rfl : before = floor.service := hbefore
      have hledger := congrArg (fun service => service.market.ledger) hservice
      have hsound := (horderly.sound _ (List.mem_of_getElem? htask)).running rfl
      have hadmits := Trade.admits errand _ call hsound.promise.1
      rcases hadmits.ledger_cases hsound.fits reception with
        hsame | ⟨transaction, bid, hphase, hsettled, hgrown⟩
      · exact .inl (hledger.trans hsame)
      · refine .inr ⟨index, bid, ⟨_, transaction, htask, rfl, rfl, hphase⟩, ?_,
          hledger.trans hgrown⟩
        rintro other ⟨task, transaction', htask', -, -, hphase'⟩
        obtain rfl := Option.some.inj (hafter.symm.trans htask')
        rw [Course.phase_append] at hphase'
        cases hsettled.symm.trans hphase'

/-- Whether every bid on an item that is about to be committed has a greater id than those on the
item in the ledger. -/
def Ascends (floor : Floor Errand) (id : Int) : Prop :=
  ∀ index bid, floor.IsCommitting index bid → bid.itemId = id →
    ∀ earlier ∈ floor.market.bidsOn id, earlier.id < bid.id

/-- As long as bids are placed one after the other, they are committed in the order of their ids. -/
theorem Ascends.take (hascends : floor.Ascends id)
    (horderly : Orderly floor.service floor.tasks) (hturns : floor.TakesTurns id)
    (move : Move Errand) : (floor.take move).Ascends id := by
  intro index bid hcommitting hitem earlier hearlier
  obtain ⟨hmem, hon⟩ := Market.mem_bidsOn.mp hearlier
  rcases isCommitting_take horderly hcommitting with hbefore | ⟨hid, hledger⟩
  · have hold (hmem : earlier ∈ floor.market.ledger) : earlier.id < bid.id :=
      hascends index bid hbefore hitem earlier (Market.mem_bidsOn.mpr ⟨hmem, hon⟩)
    rcases ledger_take horderly move with hsame | ⟨other, settled, hsettling, hover, hgrown⟩
    · exact hold (hsame ▸ hmem)
    · rw [hgrown] at hmem
      rcases List.mem_append.mp hmem with hthere | hnew
      · exact hold hthere
      · -- two bids on the item would have been staged at the same time
        obtain rfl := List.mem_singleton.mp hnew
        obtain ⟨first, hfirst, hbidding⟩ := hbefore.isBidding horderly
        obtain ⟨second, hsecond, hbidding'⟩ := hsettling.isBidding horderly
        rw [hitem] at hbidding
        rw [hon] at hbidding'
        obtain rfl := hturns index other first second hfirst hsecond hbidding hbidding'
        exact absurd hcommitting (hover bid)
  · rw [hledger] at hmem
    exact hid ▸ horderly.consistent.bid_lt_nextId hmem

theorem ascends_play {moves : List (Move Errand)}
    (hturns : ∀ earlier, earlier <+: moves → (initial.play earlier : Floor Errand).TakesTurns id) :
    (initial.play moves : Floor Errand).Ascends id := by
  induction moves using List.reverseRecOn with
  | nil =>
      rintro index bid ⟨task, transaction, htask, -⟩
      cases htask
  | append_singleton moves move ih =>
      rw [play_singleton]
      have hbefore (earlier : List (Move Errand)) (hbegins : earlier <+: moves) :=
        hturns earlier (hbegins.trans (List.prefix_append moves [move]))
      exact (ih hbefore).take (Orderly.initial.play moves) (hbefore moves List.prefix_rfl) move

/-- If a bid is committed in the order of ids, it is the highest on its item only if its price is
higher than the highest before. -/
theorem highestBid_take (horderly : Orderly floor.service floor.tasks)
    (hascends : floor.Ascends id) {highest : HighestBid}
    (hhighest : floor.market.highestBid id = some highest) (move : Move Errand) :
    (floor.take move).market.highestBid id = some highest ∨
      ∃ bid, bid.itemId = id ∧
        (floor.take move).market.ledger = floor.market.ledger ++ [bid] ∧
        highest.price < bid.price ∧
        (floor.take move).market.highestBid id = some bid.toHighest := by
  unfold Market.highestBid at hhighest ⊢
  rcases ledger_take horderly move with hsame | ⟨index, bid, hcommitting, -, hgrown⟩
  · rw [Market.bidsOn, hsame]
    exact .inl hhighest
  · rw [Market.bidsOn_append hgrown]
    by_cases hitem : bid.itemId = id
    · rw [List.filter_cons_of_pos (by simpa using hitem), List.filter_nil]
      rcases Bid.pickHighest_concat hhighest (hascends index bid hcommitting hitem) with
        hkept | ⟨hprice, hnew⟩
      · exact .inl hkept
      · exact .inr ⟨bid, hitem, hgrown, hprice, hnew⟩
    · rw [List.filter_cons_of_neg (by simpa using hitem), List.filter_nil, List.append_nil]
      exact .inl hhighest

end Floor

end

/-! ## Who may bid on an item -/

/-- Whether a call stages no bid but on certain items. -/
def ServiceCall.StagesOn (items : Int → Prop) : ServiceCall → Prop
  | .store (.insertBidIn _ place _) => items place.itemId
  | _ => True

theorem ServiceCall.IsPlain.stagesOn {call : ServiceCall} (hplain : call.IsPlain)
    (items : Int → Prop) : call.StagesOn items := by
  cases call with
  | cache call => exact trivial
  | store call =>
      cases call with
      | insertBidIn => cases hplain.2
      | _ => exact trivial

theorem Command.placeBid_stagesOn {place : PlaceBid} {items : Int → Prop}
    (hitem : items place.itemId) (now : Instant) :
    (placeBid place now).run.Asks (ServiceCall.StagesOn items) := by
  refine (placeBid_fulfils place now).asks fun phase call hplaces => ?_
  cases hplaces with
  | stage => exact hitem
  | begin | mark | commit | rollback | forget => exact trivial

/-- The items on which a business may place a bid. -/
def Business.BidsOn : Business → Int → Prop
  | .errand (.placeBid place _), id => place.itemId = id
  | .request _ _ received, id =>
    ∃ body : BidRequest, received.record BidRequest = .ok body ∧ body.itemId = id
  | _, _ => False

theorem Business.request_stagesOn (ttl : Nat) (now : Instant) (received : Http.Request) :
    (Http.respond ttl now received).Asks
      (ServiceCall.StagesOn (request ttl now received).BidsOn) := by
  rcases Http.respond_cases ttl now received with ⟨response, heq⟩ | ⟨resource, -, -, heq⟩
  · rw [heq]
    exact trivial
  · rw [heq]
    refine .bind ?_ fun _ => trivial
    by_cases hbids : resource = .buyerBids
    · subst hbids
      cases hsender : received.sender .buyer with
      | error refusal =>
          rw [Http.handle_buyerBids_of_nobody ttl now hsender]
          exact trivial
      | ok buyer =>
          cases hbody : received.record BidRequest with
          | error refusal =>
              rw [Http.handle_buyerBids_of_no_body ttl now hsender hbody]
              exact trivial
          | ok body =>
              rw [Http.handle_buyerBids_of_ok ttl now hsender hbody]
              refine .bind ?_ fun found => ?_
              · exact (Query.getBuyer_reads ttl buyer).plain.mono fun _ hplain => hplain.stagesOn _
              · cases found with
                | error failure => exact trivial
                | ok found =>
                    exact .bind (Command.placeBid_stagesOn ⟨body, hbody, rfl⟩ now) fun _ => trivial
    · exact (Http.handle_plain hbids).mono fun _ hplain => hplain.stagesOn _

theorem Business.stagesOn (business : Business) :
    (Trade.routine business).Asks (ServiceCall.StagesOn business.BidsOn) := by
  cases business with
  | request ttl now received => exact request_stagesOn ttl now received
  | errand work =>
      by_cases hwork : ∃ place now, work = .placeBid place now
      · obtain ⟨place, now, rfl⟩ := hwork
        exact Command.placeBid_stagesOn rfl now
      · refine (Errand.routine_plain fun place now heq => hwork ⟨place, now, heq⟩).mono ?_
        exact fun _ hplain => hplain.stagesOn _

/-- A task that has staged a bid was to place a bid on its item. -/
theorem Task.bidsOn_of_staged {moves : List (Move Business)} {task : Task Business}
    (hmem : task ∈ ((Floor.initial : Floor Business).play moves).tasks) {bid : Bid}
    (hstaged : task.course.staged? = some bid) : task.errand.BidsOn bid.itemId := by
  have hmem' := List.mem_of_getLast? hstaged
  obtain ⟨act, hact, hstaged⟩ := List.mem_filterMap.mp hmem'
  have hstages := (Floor.asks_of_asks moves task hmem task.errand.stagesOn).2 act hact
  obtain ⟨call, reception, before⟩ := act
  cases call with
  | cache call => cases hstaged
  | store call =>
      cases call with
      | insertBidIn transaction place now =>
          have hrecords := Settlement.Places.records (.stage transaction) hstaged
          exact hrecords.itemId ▸ hstages
      | _ => cases hstaged

/-- Whether a task that may place a bid on an item is under way. -/
def Task.IsToBid (task : Task Business) (id : Int) : Prop :=
  task.dropped = false ∧ task.result? = none ∧ task.errand.BidsOn id

/-- Whoever places bids on an item one after the other takes turns. -/
theorem Floor.takesTurns_of_alone {moves : List (Move Business)} {id : Int} :
    let floor := (Floor.initial : Floor Business).play moves
    (∀ (first second : Nat) (task other : Task Business), floor.tasks[first]? = some task →
      floor.tasks[second]? = some other → task.IsToBid id → other.IsToBid id → first = second) →
    floor.TakesTurns id := by
  rintro floor halone first second task other htask hother
    ⟨hrunning, hpending, bid, hstaged, rfl⟩ ⟨hrunning', hpending', bid', hstaged', hitem⟩
  refine halone first second task other htask hother ⟨hrunning, hpending, ?_⟩
    ⟨hrunning', hpending', ?_⟩
  · exact Task.bidsOn_of_staged (List.mem_of_getElem? htask) hstaged
  · exact hitem ▸ Task.bidsOn_of_staged (List.mem_of_getElem? hother) hstaged'

/-! ## Runs -/

/-- Whatever is run at the service, requests included, and in whatever order the calls are made:
once there is a highest bid on an item there is always one, its price never falls, and the item
stays on record. If besides no two tasks under way have ever both staged a bid on the item, as is so
when bids on it are placed one after the other, the highest bid changes only in the moment in which
a bid is committed whose price is higher. -/
theorem Floor.highest_bid_only_moves_up (moves later : List (Move Business)) (id : Int) :
    let floor := (Floor.initial : Floor Business).play moves
    (∀ highest, floor.market.highestBid id = some highest →
      (floor.play later).market.items.contains id = true ∧
      ∃ highest', (floor.play later).market.highestBid id = some highest' ∧
        highest.price ≤ highest'.price) ∧
    ((∀ earlier, earlier <+: moves →
        ((Floor.initial : Floor Business).play earlier).TakesTurns id) →
      ∀ earlier move, earlier ++ [move] <+: moves →
        let before := ((Floor.initial : Floor Business).play earlier).market
        let after := ((Floor.initial : Floor Business).play (earlier ++ [move])).market
        ∀ highest, before.highestBid id = some highest →
          after.highestBid id = some highest ∨
          ∃ bid, bid.itemId = id ∧ after.ledger = before.ledger ++ [bid] ∧
            highest.price < bid.price ∧ after.highestBid id = some bid.toHighest) := by
  intro floor
  refine ⟨fun highest hhighest => ?_, fun hturns earlier move hprefix => ?_⟩
  · have horderly : Orderly floor.service floor.tasks := Orderly.initial.play moves
    obtain ⟨added, hledger⟩ := horderly.ledger_prefix later
    obtain ⟨highest', hlater, hle⟩ := Bid.pickHighest_append hhighest
      (added.filter fun bid => bid.itemId = id)
    rw [← Market.bidsOn_append hledger.symm] at hlater
    refine ⟨?_, highest', hlater, hle⟩
    obtain ⟨best, hbest, -⟩ := Option.map_eq_some_iff.mp hhighest
    obtain ⟨hmem, rfl⟩ := Market.mem_bidsOn.mp (Bid.wins_of_best? hbest).mem
    have hthere := (horderly.ledger_prefix later).subset hmem
    exact (horderly.play later).consistent.linked.item_of_bid best hthere
  · intro before after highest hhighest
    have hascends := ascends_play fun before hbefore =>
      hturns before (hbefore.trans ((List.prefix_append earlier [move]).trans hprefix))
    have htaken := highestBid_take (Orderly.initial.play earlier) hascends hhighest move
    rwa [← play_singleton] at htaken

-- The bids are staged at the same time, and the first of them, committed last, displaces the other.
example (now : Instant) (date : Date) :
    let overtaken := (Floor.initial : Floor Errand).play [
      .enter (.direct (.createVenue ⟨"", "", ""⟩ now) ⟨nofun, rfl⟩), .serve 0 .answered,
      .enter (.direct (.createAuction ⟨1, date, none, none, none⟩ now) ⟨nofun, rfl⟩),
      .serve 1 .answered,
      .enter (.direct (.createFisherman "" now) ⟨nofun, rfl⟩), .serve 2 .answered,
      .enter (.direct (.createItem ⟨2, 3, "", 1, "", none, 1⟩ now) ⟨nofun, rfl⟩),
      .serve 3 .answered,
      .enter (.direct (.createBuyer "" now) ⟨nofun, rfl⟩), .serve 4 .answered,
      .enter (.direct (.createBuyer "" now) ⟨nofun, rfl⟩), .serve 5 .answered,
      .enter (.placeBid ⟨4, 5, 100⟩ now), .enter (.placeBid ⟨4, 6, 100⟩ now),
      .serve 6 .answered, .serve 6 .answered, .serve 6 .answered,
      .serve 7 .answered, .serve 7 .answered, .serve 7 .answered, .serve 7 .answered]
    [overtaken, overtaken.take (.serve 6 .answered)].map (fun floor => floor.market.highestBid 4) =
      [some ⟨100, 6⟩, some ⟨100, 5⟩] := by
  cbv

end FishMarket
