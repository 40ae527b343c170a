import FishMarket.Proofs.Floor.Tasks
import FishMarket.Proofs.Floor.Venues

/-! # Auctions that are opened

Whoever opens an auction looks for the venue first, and opens the auction in a call of its own. The
venue that was seen keeps its row, and nothing is done to it but that it may be given up. If that
happens between the two calls, the auction is opened all the same: the call that opens it looks
whether there is a row of the venue, and not whether the venue is still visible.
-/

namespace FishMarket

open Calendar

/-! ## Venues that are given up -/

namespace Market

variable {market after : Market} {named : Option TransactionId} {id : Int}

/-- Whether there is a venue under an id that was given up. -/
def VenueHidden (id : Int) (market : Market) : Prop :=
  ∃ venue, market.venues.find? id = some venue ∧ venue.isVisible = false

/-- A venue that was given up stays so. -/
theorem VenueHidden.stable (id : Int) : Stable (VenueHidden id) where
  change := by
    rintro market after named ⟨venue, hvenue, hhidden⟩ hconsistent hchange
    cases hchange with
    | venueAdded added hid =>
        have hold : id ≠ market.nextId := ne_nextId (hconsistent.venue_le_lastId hvenue)
        refine ⟨venue, ?_, hhidden⟩
        rw [Table.find?_insert, hid, if_neg hold]
        exact hvenue
    | venueGivenUp other now found hfound hbids =>
        unfold VenueHidden
        simp only [Table.find?_modify]
        split
        next => exact ⟨{ venue with deletedAt? := some now }, by rw [hvenue]; rfl, rfl⟩
        next => exact ⟨venue, hvenue, hhidden⟩
    | _ => exact ⟨venue, hvenue, hhidden⟩
  committed := by
    rintro market transaction ⟨venue, hvenue, hhidden⟩ - -
    exact ⟨venue, (market.committed_venues transaction).symm ▸ hvenue, hhidden⟩

/-- Only two sorts of calls do anything to the venues. -/
theorem venues_answer (market : Market) {call : StoreCall}
    (hadds : ∀ venue now, call ≠ .createVenue venue now)
    (hgivesUp : ∀ id now, call ≠ .softDeleteVenue id now) :
    (market.answer call).2.venues = market.venues := by
  cases call with
  | createVenue venue now => exact absurd rfl (hadds venue now)
  | softDeleteVenue id now => exact absurd rfl (hgivesUp id now)
  | commit transaction =>
      change (market.commit transaction).2.venues = _
      rcases market.commit_cases transaction with ⟨failure, heq⟩ | ⟨-, heq⟩
      · rw [heq]
        rfl
      · rw [heq]
        exact market.committed_venues transaction
  | createAuction auction now =>
      simp only [answer, createAuction]
      split <;> rfl
  | updateAuctionStatus id status now =>
      simp only [answer]
      rcases market.writeAuctionStatus_cases id status now with heq | ⟨auction, heq⟩ <;> rw [heq]
  | completeAuction id now =>
      simp only [answer, completeAuction]
      split
      next => rfl
      next =>
        split
        next => rfl
        next =>
          rcases market.writeAuctionStatus_cases id .completed now with heq | ⟨auction, heq⟩ <;>
            rw [heq]
  | deleteAuction id =>
      simp only [answer]
      rcases market.deleteAuction_cases id with ⟨failure, heq⟩ | heq <;> rw [heq]
  | createItem item now =>
      simp only [answer, createItem]
      split <;> rfl
  | updateItemStatus id status =>
      simp only [answer]
      rcases market.updateItemStatus_cases id status with heq | ⟨item, heq⟩ <;> rw [heq]
  | setItemStatusIn transaction id status =>
      simp only [answer, setItemStatusIn]
      split <;> rfl
  | insertBidIn transaction bid now =>
      simp only [answer, insertBidIn]
      split
      next => rfl
      next => split <;> rfl
  | _ => rfl

/-- An auction is opened at a venue that is on record, whether or not the venue can be seen. -/
theorem createAuction_of_venue (market : Market) (new : NewAuction) (now : Instant)
    (hrecorded : market.venues.contains new.venueId = true) :
    ∃ auction : Auction, auction.venueId = new.venueId ∧ auction.id = market.nextId ∧
      market.createAuction new now = (.ok auction,
        { market.takeId with auctions := market.auctions.insert auction.id auction }) := by
  unfold createAuction
  extract_lets auction
  exact ⟨auction, rfl, rfl, if_pos hrecorded⟩

/-- A visible venue stays as it is, unless a call gives it up. -/
theorem findVenue_answer (hconsistent : market.Consistent) {venue : Venue}
    (hfound : market.findVenue id = some venue) (call : StoreCall) :
    (market.answer call).2.findVenue id = some venue ∨
      VenueHidden id (market.answer call).2 ∧
        ∃ now, call = .softDeleteVenue id now ∧ (market.softDeleteVenue id now).1 = .ok () := by
  obtain ⟨hvenue, hvisible⟩ := Option.filter_eq_some_iff.mp hfound
  have hsame (hvenues : (market.answer call).2.venues.find? id = market.venues.find? id) :
      (market.answer call).2.findVenue id = some venue := by
    rw [findVenue, hvenues]
    exact hfound
  by_cases hadds : ∃ venue now, call = .createVenue venue now
  · obtain ⟨new, now, rfl⟩ := hadds
    have hold : id ≠ market.nextId := ne_nextId (hconsistent.venue_le_lastId hvenue)
    refine .inl (hsame ?_)
    simp only [answer, createVenue, Table.find?_insert, if_neg hold]
  by_cases hgivesUp : ∃ other now, call = .softDeleteVenue other now
  · obtain ⟨other, now, rfl⟩ := hgivesUp
    simp only [answer]
    by_cases hok : (market.softDeleteVenue other now).1 = .ok ()
    · have hgivenUp := (hconsistent.filed.guardsVenue other now).marks hok
      by_cases hid : id = other
      · subst hid
        refine .inr ⟨⟨{ venue with deletedAt? := some now }, ?_, rfl⟩, now, rfl, hok⟩
        rw [hgivenUp.venues, if_pos rfl, hvenue]
        rfl
      · refine .inl (hsame ?_)
        exact (hgivenUp.venues id).trans (if_neg hid)
    · refine .inl (hsame ?_)
      simp only [answer]
      rw [(hconsistent.filed.guardsVenue other now).refused hok]
  · refine .inl (hsame ?_)
    rw [market.venues_answer (fun venue now heq => hadds ⟨venue, now, heq⟩)
      fun other now heq => hgivesUp ⟨other, now, heq⟩]

end Market

namespace Command

/-- What is left of opening an auction once the venue was seen. -/
def openAuction (new : NewAuction) (now : Instant) : ServiceRoutine (Except Failure Auction) :=
  .ask (.store (.createAuction new now)) .done

/-- Opening an auction either fails at once or begins with a look for the venue. -/
theorem createAuction_cases (new : NewAuction) (now : Instant) :
    (∃ failure, (createAuction new now).run = .done (.error failure)) ∨
      (createAuction new now).run = .ask (.store (.findVenue new.venueId)) fun
        | .error failure => .done (.error failure)
        | .ok none => .done (.error (.notFound (.venue new.venueId)))
        | .ok (some _) => openAuction new now := by
  unfold createAuction
  extract_lets create checkTimes
  have hcreate : (create ()).run = .ask (.store (.findVenue new.venueId)) fun
      | .error failure => .done (.error failure)
      | .ok none => .done (.error (.notFound (.venue new.venueId)))
      | .ok (some _) => openAuction new now := by
    refine congrArg (Routine.ask _) (funext fun reply => ?_)
    rcases reply with failure | _ | venue <;> rfl
  have htimes : (∃ failure, (checkTimes ()).run = .done (.error failure)) ∨
      (checkTimes ()).run = (create ()).run := by
    unfold checkTimes
    split
    next =>
      split
      next => exact .inl ⟨_, rfl⟩
      next => exact .inr rfl
    next => exact .inr rfl
  rw [← hcreate]
  split
  next =>
    split
    next => exact .inl ⟨_, rfl⟩
    next => exact htimes
  next => exact htimes

end Command

/-- Whether a move is one of a run in which nothing is done but that venues are created and given
up, and auctions are opened. -/
def Move.isOfVenues : Move Business → Bool
  | .enter (.errand (.createVenue _ _)) => true
  | .enter (.errand (.deleteVenue _ _)) => true
  | .enter (.errand (.createAuction _ _)) => true
  | .serve _ .answered => true
  | _ => false

namespace Floor

variable {Errand : Type} [Trade Errand] {floor : Floor Errand} {move : Move Errand} {id : Int}

/-- Whether a move is a call that gives up a venue. -/
def GivesUp (floor : Floor Errand) (move : Move Errand) (id : Int) : Prop :=
  ∃ now, floor.act? move = some ⟨.store (.softDeleteVenue id now), .answered, floor.service⟩ ∧
    (floor.market.softDeleteVenue id now).1 = .ok ()

/-- A visible venue stays as it is, unless a move gives it up. -/
theorem findVenue_take (hconsistent : floor.market.Consistent) {venue : Venue}
    (hfound : floor.market.findVenue id = some venue) (move : Move Errand) :
    (floor.take move).market.findVenue id = some venue ∨
      (floor.take move).market.VenueHidden id ∧ floor.GivesUp move id := by
  have hsame (hvenues : (floor.take move).market.venues = floor.market.venues) :
      (floor.take move).market.findVenue id = some venue := by
    rw [Market.findVenue, hvenues]
    exact hfound
  rcases take_cases floor move with
    ⟨⟨call, reception, before⟩, hact, rfl, hafter, -⟩ | ⟨-, hentities⟩
  · have hmarket : (floor.take move).market = (floor.service.receive call reception).2.market :=
      congrArg Service.market hafter
    cases call with
    | cache call =>
        refine .inl (hsame ?_)
        rw [hmarket]
        cases reception <;> rfl
    | store call =>
        cases reception with
        | answered =>
            rw [hmarket]
            rcases floor.market.findVenue_answer hconsistent hfound call with
              hkept | ⟨hhidden, now, rfl, hok⟩
            · exact .inl hkept
            · exact .inr ⟨hhidden, now, hact, hok⟩
        | refused failure =>
            refine .inl (hsame ?_)
            rw [hmarket]
            simp only [Service.receive, Rehearsal.refused]
            split <;> rfl
  · exact .inl (hsame (congrArg Market.Entities.venues hentities))

/-- A visible venue stays as it is, unless a later move gives it up. -/
theorem findVenue_play (hconsistent : floor.market.Consistent) {venue : Venue}
    (hfound : floor.market.findVenue id = some venue) (moves : List (Move Errand)) :
    (floor.play moves).market.findVenue id = some venue ∨
      (floor.play moves).market.VenueHidden id ∧
        ∃ earlier move, earlier ++ [move] <+: moves ∧ (floor.play earlier).GivesUp move id := by
  induction moves using List.reverseRecOn with
  | nil => exact .inl hfound
  | append_singleton moves move ih =>
      have hconsistent' := consistent_play hconsistent moves
      rw [play_singleton]
      rcases ih with hkept | ⟨hhidden, earlier, giving, hbegins, hgives⟩
      · rcases findVenue_take hconsistent' hkept move with hkept' | ⟨hhidden, hgives⟩
        · exact .inl hkept'
        · exact .inr ⟨hhidden, moves, move, List.prefix_rfl, hgives⟩
      · right
        have hlater := stable_take (Market.VenueHidden.stable id) hhidden hconsistent' move
        exact ⟨hlater, earlier, giving, hbegins.trans (List.prefix_append _ _), hgives⟩

/-! ## From the look to the call -/

/-- How an auction was opened: at some moment the task with a number saw a venue, and at a later one
the auction was added to what is on record. By then the venue may have been given up. -/
structure Opens (index : Nat) (new : NewAuction) (auction : Auction) (venue : Venue)
    (seen before : List (Move Business)) : Prop where
  sought : (play initial seen).due? index = some (.store (.findVenue new.venueId))
  visible : (play initial seen).market.findVenue new.venueId = some venue
  earlier : seen ++ [.serve index .answered] <+: before
  there : auction.venueId = new.venueId
  absent : (play initial before).market.auctions.find? auction.id = none
  added : (play initial (before ++ [.serve index .answered])).market.entities =
    { (play initial before).market.entities with
      auctions := (play initial before).market.auctions.insert auction.id auction }
  still : (play initial before).market.findVenue auction.venueId = some venue ∨
    (play initial before).market.VenueHidden auction.venueId ∧
      ∃ between move, seen ++ between ++ [move] <+: before ∧
        (play initial (seen ++ between)).GivesUp move auction.venueId

/-- Whether an act that belongs to opening an auction leaves everything on record as it is. If it is
the call to open the auction, it was refused. -/
def LeavesUnopened (new : NewAuction) (now : Instant) (act : Act) : Prop :=
  act.after.market.entities = act.before.market.entities ∧
    (act.call = .store (.createAuction new now) → act.reception ≠ .answered)

/-- How far a task that is to open an auction has come. -/
inductive Opening (moves : List (Move Business)) (index : Nat) (new : NewAuction) (now : Instant) :
    Course (Except Failure Auction) → Prop where
  | begun : Opening moves index new now (.start (Command.createAuction new now).run)
  | seen {acts : List Act} (seen : List (Move Business)) (venue : Venue)
      (hsought : (play initial seen).due? index = some (.store (.findVenue new.venueId)))
      (hvisible : (play initial seen).market.findVenue new.venueId = some venue)
      (hearlier : seen ++ [.serve index .answered] <+: moves)
      (hidle : ∀ act ∈ acts, LeavesUnopened new now act) :
      Opening moves index new now ⟨acts, Command.openAuction new now⟩
  | failed {acts : List Act} (failure : Failure)
      (hidle : ∀ act ∈ acts, LeavesUnopened new now act) :
      Opening moves index new now ⟨acts, .done (.error failure)⟩
  | opened {acts : List Act} (auction : Auction) (venue : Venue)
      (seen before : List (Move Business)) (hopens : Opens index new auction venue seen before)
      (hbefore : before ++ [.serve index .answered] <+: moves) :
      Opening moves index new now ⟨acts, .done (.ok auction)⟩

namespace Opening

variable {moves : List (Move Business)} {index : Nat} {new : NewAuction} {now : Instant}
  {acts : List Act} {course : Course (Except Failure Auction)}

/-- What was done so far stays done. -/
theorem later (hopening : Opening moves index new now course) (move : Move Business) :
    Opening (moves ++ [move]) index new now course := by
  have hlater {earlier : List (Move Business)} (hbegins : earlier <+: moves) :
      earlier <+: moves ++ [move] := hbegins.trans (List.prefix_append _ _)
  cases hopening with
  | begun => exact .begun
  | seen seen venue hsought hvisible hearlier hidle =>
      exact .seen seen venue hsought hvisible (hlater hearlier) hidle
  | failed failure hidle => exact .failed failure hidle
  | opened auction venue seen before hopens hbefore =>
      exact .opened auction venue seen before hopens (hlater hbefore)

/-- The look for the venue, if it is due. -/
theorem look {next : (ServiceCall.store (.findVenue new.venueId)).Answer →
      ServiceRoutine (Except Failure Auction)}
    (hdue : (play initial moves : Floor Business).due? index =
      some (.store (.findVenue new.venueId)))
    (hrun : (Command.createAuction new now).run = .ask (.store (.findVenue new.venueId)) next)
    (reception : Reception) :
    let act : Act := ⟨.store (.findVenue new.venueId), reception,
      (play initial moves : Floor Business).service⟩
    Opening (moves ++ [.serve index reception]) index new now ⟨[act], next act.answer⟩ := by
  intro act
  rcases Command.createAuction_cases new now with ⟨failure, hdone⟩ | hlooks
  · cases hrun.symm.trans hdone
  · cases hrun.symm.trans hlooks
    have hidle : ∀ other ∈ [act], LeavesUnopened new now other := by
      intro other hmem
      obtain rfl := List.mem_singleton.mp hmem
      refine ⟨?_, nofun⟩
      cases reception <;> rfl
    cases reception with
    | refused failure => exact .failed failure hidle
    | answered =>
        have hanswer : act.answer =
            .ok ((play initial moves : Floor Business).market.findVenue new.venueId) := rfl
        rw [hanswer]
        cases hfound : (play initial moves : Floor Business).market.findVenue new.venueId with
        | none => exact .failed _ hidle
        | some venue => exact .seen moves venue hdue hfound List.prefix_rfl hidle

/-- The call that opens the auction: once the venue was seen, only a refusal makes it fail. -/
theorem write {seen : List (Move Business)} {venue : Venue}
    (hsought : (play initial seen).due? index = some (.store (.findVenue new.venueId)))
    (hvisible : (play initial seen).market.findVenue new.venueId = some venue)
    (hearlier : seen ++ [.serve index .answered] <+: moves)
    (hidle : ∀ act ∈ acts, LeavesUnopened new now act)
    (htask : (play initial moves).tasks[index]? = some
      ⟨.errand (.createAuction new now), ⟨acts, Command.openAuction new now⟩, false⟩)
    (reception : Reception) :
    let act : Act := ⟨.store (.createAuction new now), reception,
      (play initial moves : Floor Business).service⟩
    Opening (moves ++ [.serve index reception]) index new now
      ⟨acts ++ [act], .done act.answer⟩ := by
  intro act
  cases reception with
  | refused failure =>
      refine .failed failure fun other hmem => ?_
      rcases List.mem_append.mp hmem with hbefore | hlast
      · exact hidle other hbefore
      · obtain rfl := List.mem_singleton.mp hlast
        exact ⟨rfl, nofun⟩
  | answered =>
      let market := (play initial moves : Floor Business).market
      obtain ⟨between, rfl⟩ := (List.prefix_append seen _).trans hearlier
      have hnow : market.Consistent := (Orderly.initial.play (seen ++ between)).consistent
      have hstill := findVenue_play (Orderly.initial.play seen).consistent hvisible between
      rw [← play_append] at hstill
      have hrecorded : market.venues.contains new.venueId = true := by
        rcases hstill with hkept | ⟨⟨row, hrow, -⟩, -⟩
        · exact Table.contains_iff.mpr ⟨venue, (Option.filter_eq_some_iff.mp hkept).1⟩
        · exact Table.contains_iff.mpr ⟨row, hrow⟩
      obtain ⟨auction, hthere, hid, hcreated⟩ := market.createAuction_of_venue new now hrecorded
      have hanswer : act.answer = .ok auction := congrArg Prod.fst hcreated
      rw [hanswer]
      refine .opened auction venue seen _ ⟨hsought, hvisible, hearlier, hthere, ?_, ?_, ?_⟩
        List.prefix_rfl
      · rw [hid]
        exact (hnow.numbered.find?_next hnow.filed).2.1
      · rw [play_singleton]
        have hmarket := congrArg Service.market (take_serve htask .answered).1
        exact congrArg Market.entities (hmarket.trans (congrArg Prod.snd hcreated))
      · rw [hthere]
        refine hstill.imp_right fun ⟨hhidden, earlier, move, hbegins, hgives⟩ => ?_
        refine ⟨hhidden, earlier, move, ?_, ?_⟩
        · rw [List.append_assoc]
          exact List.prefix_append_right_inj _ |>.mpr hbegins
        · rwa [play_append]

/-- What has become of it in the end. -/
theorem of_ended (hopening : Opening moves index new now course)
    {outcome : Except Failure Auction} (hended : course.rest = .done outcome) :
    (∃ failure, outcome = .error failure ∧ ∀ act ∈ course.acts, LeavesUnopened new now act) ∨
      ∃ auction venue seen before, outcome = .ok auction ∧
        before ++ [.serve index .answered] <+: moves ∧
        Opens index new auction venue seen before := by
  cases hopening with
  | begun =>
      have hrun : (Command.createAuction new now).run = .done outcome := hended
      rcases Command.createAuction_cases new now with ⟨failure, hdone⟩ | hlooks
      · rw [hdone] at hrun
        cases hrun
        exact .inl ⟨failure, rfl, fun act hmem => absurd hmem List.not_mem_nil⟩
      · rw [hlooks] at hrun
        cases hrun
  | seen => cases hended
  | failed failure hidle =>
      cases hended
      exact .inl ⟨failure, rfl, hidle⟩
  | opened auction venue seen before hopens hbefore =>
      cases hended
      exact .inr ⟨auction, venue, seen, before, rfl, hbefore, hopens⟩

end Opening

/-- A task that is to open an auction has come as far as its acts tell. -/
theorem opening_of_task (moves : List (Move Business)) (index : Nat) {new : NewAuction}
    {now : Instant} {course : Course (Except Failure Auction)} {dropped : Bool}
    (htask : (play initial moves).tasks[index]? = some
      ⟨.errand (.createAuction new now), course, dropped⟩) :
    Opening moves index new now course := by
  induction moves using List.reverseRecOn generalizing course dropped with
  | nil => cases htask
  | append_singleton moves move ih =>
      rw [play_singleton] at htask
      rcases task_cases htask with hsame | ⟨errand, -, -, hstart⟩ |
        ⟨errand, acts, call, next, reception, rfl, hserved, heq⟩ | ⟨former, -, hformer, heq⟩
      · exact (ih hsame).later move
      · cases hstart
        exact .begun
      · cases heq
        generalize hrest : Routine.ask call next = rest at hserved
        have hopening := ih hserved
        cases hopening with
        | begun =>
            rcases Command.createAuction_cases new now with ⟨failure, hdone⟩ | hlooks
            · cases hrest.trans hdone
            · have hasked := hrest.trans hlooks
              cases hasked
              rw [hlooks] at hserved
              exact Opening.look (due?_eq_some_iff.mpr ⟨_, _, _, hserved⟩) hlooks reception
        | seen seen venue hsought hvisible hearlier hidle =>
            cases hrest
            exact Opening.write hsought hvisible hearlier hidle hserved reception
        | failed failure hidle => cases hrest
        | opened => cases hrest
      · obtain ⟨errand, formerly, wasDropped⟩ := former
        cases heq
        exact (ih hformer).later move

/-- Whatever others do in the meantime: whoever was to open an auction, and has come to an end,
either has left everything on record as it was, or has added the auction at a venue that it had
seen. A call to open the auction that is not refused succeeds. When it was made, the venue was just
as it had been seen, unless somebody had given it up in between. -/
theorem auctions_open_at_seen_venues (moves : List (Move Business)) (index : Nat)
    {new : NewAuction} {now : Instant} {acts : List Act} {outcome : Except Failure Auction}
    {dropped : Bool}
    (htask : (play initial moves).tasks[index]? = some
      ⟨.errand (.createAuction new now), ⟨acts, .done outcome⟩, dropped⟩) :
    (∃ failure, outcome = .error failure ∧ ∀ act ∈ acts, LeavesUnopened new now act) ∨
      ∃ auction venue seen before, outcome = .ok auction ∧
        before ++ [.serve index .answered] <+: moves ∧
        Opens index new auction venue seen before :=
  (opening_of_task moves index htask).of_ended rfl

/-- A venue is created and then an auction is opened there. -/
def oneOpening : List (Move Business) :=
  [.enter (.errand (.createVenue ⟨"Pier", "1", ""⟩ default)), .serve 0 .answered,
    .enter (.errand (.createAuction ⟨1, ⟨19800⟩, none, none, none⟩ default)),
    .serve 1 .answered, .serve 1 .answered]

theorem first_auction_opens_at_seen_venue :
    ∃ auction venue seen before, before ++ [.serve 1 .answered] <+: oneOpening ∧
      Opens 1 ⟨1, ⟨19800⟩, none, none, none⟩ auction venue seen before := by
  rcases auctions_open_at_seen_venues oneOpening 1 rfl with
    ⟨failure, hfailed, -⟩ | ⟨auction, venue, seen, before, -, hopened⟩
  · cases hfailed
  · exact ⟨auction, venue, seen, before, hopened⟩

/-! Somebody gives up the venue between the look and the call. -/

/-- Not every auction is opened at a venue that is visible then. -/
theorem auction_opened_at_hidden_venue :
    ¬ ∀ (moves : List (Move Business)) (move : Move Business) (auction : Auction),
      let floor : Floor Business := play initial moves
      (∀ made ∈ moves ++ [move], made.isOfVenues = true) →
      floor.market.auctions.find? auction.id = none →
      (floor.take move).market.auctions.find? auction.id = some auction →
      (floor.market.findVenue auction.venueId).isSome = true := by
  intro hvisible
  let moves : List (Move Business) :=
    [.enter (.errand (.createVenue ⟨"Pier", "1", ""⟩ default)), .serve 0 .answered,
      .enter (.errand (.createAuction ⟨1, ⟨19800⟩, none, none, none⟩ default)),
      .serve 1 .answered,
      .enter (.errand (.deleteVenue 1 default)), .serve 2 .answered]
  let auction : Auction :=
    ⟨2, 1, ⟨19800⟩, none, none, .scheduled, default, default⟩
  have hshown := hvisible moves (.serve 1 .answered) auction (by decide) (by decide +kernel)
    (by decide +kernel)
  revert hshown
  decide +kernel

end Floor

end FishMarket
