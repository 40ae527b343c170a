import FishMarket.Proofs.Floor.Ledger
import FishMarket.Proofs.Floor.Moments
import FishMarket.Proofs.Market.Deletion

/-! # Venues of bids

A bid can be traced back to its item, from there to the auction and from there to the venue, at all
times. Once the bid is recorded, the row of the venue is not written any more: a venue with a bid
cannot be given up, and nothing else is ever done to a venue. But nobody looks at the venue when a
bid is placed, so it may have been given up before.
-/

namespace FishMarket

open Calendar

namespace Market

variable {market after : Market} {named : Option TransactionId} {bid : Bid} {venue : Venue}

/-- Whether a bid is on an item of an auction at a venue. -/
def IsAtVenue (market : Market) (bid : Bid) (venue : Venue) : Prop :=
  ∃ item auction, market.items.find? bid.itemId = some item ∧
    market.auctions.find? item.auctionId = some auction ∧
    market.venues.find? auction.venueId = some venue

/-- What a change can do to the venue under an id that was given out. -/
theorem Change.find?_venue (hchange : Change market named after) {id : Int}
    (hgiven : id ≤ market.lastId) :
    after.venues.find? id = market.venues.find? id ∨ market.venueHasBids id = false := by
  cases hchange with
  | venueAdded venue hid =>
      left
      rw [Table.find?_insert, hid, if_neg (ne_nextId hgiven)]
  | venueGivenUp other now venue hfound hbids =>
      rw [Table.find?_modify]
      split
      next hsame => exact .inr (hsame ▸ hbids)
      next => exact .inl rfl
  | _ => exact .inl rfl

theorem committed_venues (market : Market) (transaction : TransactionId) :
    (market.committed transaction).venues = market.venues := by
  rw [committed_eq]

/-- A bid in the ledger can be traced back to a venue. -/
theorem Consistent.exists_venue (hconsistent : market.Consistent) (hmem : bid ∈ market.ledger) :
    ∃ venue, market.IsAtVenue bid venue := by
  have hlinked := hconsistent.linked
  obtain ⟨item, hitem⟩ := Table.contains_iff.mp (hlinked.item_of_bid bid hmem)
  obtain ⟨auction, hauction⟩ := Table.contains_iff.mp (hlinked.auction_of_item _ item hitem)
  obtain ⟨venue, hvenue⟩ := Table.contains_iff.mp (hlinked.venue_of_auction _ auction hauction)
  exact ⟨venue, item, auction, hitem, hauction, hvenue⟩

/-- The id of a venue was given out. -/
theorem Consistent.venue_le_lastId (hconsistent : market.Consistent) {id : Int}
    (hvenue : market.venues.find? id = some venue) : id ≤ market.lastId := by
  have hvalue : venue ∈ market.venues.values := Table.mem_values_iff.mpr ⟨id, hvenue⟩
  have hmem : venue.id ∈ market.ids := by
    simp only [ids, entityIds, List.mem_append]
    exact .inl (.inl (.inl (.inl (.inl (.inl (List.mem_map_of_mem hvalue))))))
  rw [hconsistent.filed.venues id venue hvenue] at hmem
  exact (hconsistent.numbered.within id hmem).2

/-- A bid that was recorded stays at its venue, and the venue stays as it is. -/
theorem IsAtVenue.stable (bid : Bid) (venue : Venue) :
    Stable fun market => bid ∈ market.ledger ∧ market.IsAtVenue bid venue where
  change := by
    rintro market after named ⟨hmem, item, auction, hitem, hauction, hvenue⟩ hconsistent hchange
    have honAuction : market.BidOnAuction item.auctionId := ⟨bid, hmem, item, hitem, rfl⟩
    have honVenue : market.BidOnVenue auction.venueId :=
      ⟨item.auctionId, auction, hauction, rfl, honAuction⟩
    have hitem' : ∃ item', after.items.find? bid.itemId = some item' ∧
        item'.auctionId = item.auctionId := by
      rcases hchange.find?_item (hconsistent.item_le_lastId hitem) with
        hsame | ⟨row, status, hrow, hwritten⟩ | ⟨row, hrow, -, hfree⟩
      · exact ⟨item, hsame.trans hitem, rfl⟩
      · obtain rfl := Option.some.inj (hitem.symm.trans hrow)
        exact ⟨_, hwritten, rfl⟩
      · obtain rfl := Option.some.inj (hitem.symm.trans hrow)
        cases hfree.symm.trans (auctionHasBids_eq_true_iff.mpr honAuction)
    have hauction' : ∃ auction', after.auctions.find? item.auctionId = some auction' ∧
        auction'.venueId = auction.venueId := by
      rcases hchange.find?_auction (hconsistent.auction_le_lastId hauction) with
        hsame | ⟨row, status, now, hrow, -, hwritten⟩ | ⟨hfree, -⟩
      · exact ⟨auction, hsame.trans hauction, rfl⟩
      · obtain rfl := Option.some.inj (hauction.symm.trans hrow)
        exact ⟨_, hwritten, rfl⟩
      · cases hfree.symm.trans (auctionHasBids_eq_true_iff.mpr honAuction)
    have hvenue' : after.venues.find? auction.venueId = some venue := by
      rcases hchange.find?_venue (hconsistent.venue_le_lastId hvenue) with hsame | hfree
      · exact hsame.trans hvenue
      · cases hfree.symm.trans (hconsistent.filed.venueHasBids_eq_true_iff.mpr honVenue)
    obtain ⟨item', hitem', hsameAuction⟩ := hitem'
    obtain ⟨auction', hauction', hsameVenue⟩ := hauction'
    refine ⟨hchange.ledger_eq ▸ hmem, item', auction', hitem', ?_, ?_⟩
    · rw [hsameAuction]
      exact hauction'
    · rw [hsameVenue]
      exact hvenue'
  committed := by
    rintro market transaction ⟨hmem, item, auction, hitem, hauction, hvenue⟩ hconsistent hready
    obtain ⟨status, heq⟩ := market.find?_committed_item transaction bid.itemId
    rw [hitem, Option.map_some] at heq
    refine ⟨(mem_ledger_stable bid).committed hmem hconsistent hready, _, auction, heq, ?_, ?_⟩
    · rw [committed_auctions]
      exact hauction
    · rw [committed_venues]
      exact hvenue

/-- Only a commit adds to the ledger, and it does nothing to the venues. -/
theorem Traded.venues_eq (htraded : market.Traded after) (hnew : bid ∉ market.ledger)
    (hmem : bid ∈ after.ledger) : after.venues = market.venues := by
  cases htraded with
  | changed hchange => exact absurd (hchange.ledger_eq ▸ hmem) hnew
  | settled transaction => exact market.committed_venues transaction
  | abandoned transactions => rw [foldl_close_eq]

end Market

theorem Service.perform_getVenue (service : Service) (id : Int) :
    (service.perform (Query.getVenue id)).1 =
      (service.market.findVenue id).elim (.error (.notFound (.venue id))) .ok := by
  have hrun : service.perform (Query.getVenue id) =
      (Action.found (.venue id) (service.market.findVenue id)).run.run Service.answer service := rfl
  rw [hrun]
  cases service.market.findVenue id <;> rfl

namespace Floor

/-- The venue of a bid, if it is not visible, was given up before the bid was recorded. -/
theorem venue_of_bid (moves : List (Move Business)) :
    let floor := (Floor.initial : Floor Business).play moves
    ∀ bid ∈ floor.market.ledger, ∃ venue, floor.market.IsAtVenue bid venue ∧
      (venue.isVisible = false → ∃ earlier, earlier <+: moves ∧
        let before := ((Floor.initial : Floor Business).play earlier).market
        bid ∉ before.ledger ∧ before.venues.find? venue.id = some venue) := by
  induction moves using List.reverseRecOn with
  | nil => exact fun bid hmem => absurd hmem List.not_mem_nil
  | append_singleton moves move ih =>
      intro floor bid hmem
      let former : Floor Business := Floor.initial.play moves
      have horderly : Orderly former.service former.tasks := Orderly.initial.play moves
      obtain ⟨horderly', htraded⟩ := horderly.take move
      have hfloor : former.take move = floor := (play_singleton _ moves move).symm
      rw [hfloor] at horderly' htraded
      by_cases hbefore : bid ∈ former.market.ledger
      · obtain ⟨venue, hvenue, hearlier⟩ := ih bid hbefore
        refine ⟨venue, ?_, fun hhidden => ?_⟩
        · have hstable := Market.IsAtVenue.stable bid venue
          exact (hstable.traded ⟨hbefore, hvenue⟩ horderly.consistent htraded).2
        · obtain ⟨earlier, hprefix, hgivenUp⟩ := hearlier hhidden
          exact ⟨earlier, hprefix.trans (List.prefix_append _ _), hgivenUp⟩
      · obtain ⟨venue, item, auction, hitem, hauction, hvenue⟩ :=
          horderly'.consistent.exists_venue hmem
        refine ⟨venue, ⟨item, auction, hitem, hauction, hvenue⟩, fun _ => ?_⟩
        refine ⟨moves, List.prefix_append _ _, hbefore, ?_⟩
        rw [horderly'.consistent.filed.venues _ venue hvenue]
        have hsame := htraded.venues_eq hbefore hmem
        exact (congrArg (·.find? auction.venueId) hsame).symm.trans hvenue

/-- At any moment every bid in the ledger can be traced back to a venue, and at all later moments to
the same row of it. The venue is found by everybody who looks for it, unless it had been given up
before the bid was recorded. -/
theorem bids_keep_their_venues (moves later : List (Move Business)) :
    let floor := (Floor.initial : Floor Business).play moves
    ∀ bid ∈ floor.market.ledger, ∃ venue,
      floor.market.IsAtVenue bid venue ∧ (floor.play later).market.IsAtVenue bid venue ∧
      (floor.market.findVenue venue.id = some venue ∧
          (floor.service.perform (Query.getVenue venue.id)).1 = .ok venue ∨
        venue.isVisible = false ∧ ∃ earlier, earlier <+: moves ∧
          let before := ((Floor.initial : Floor Business).play earlier).market
          bid ∉ before.ledger ∧ before.venues.find? venue.id = some venue) := by
  intro floor bid hmem
  have horderly : Orderly floor.service floor.tasks := Orderly.initial.play moves
  obtain ⟨venue, hat, hearlier⟩ := venue_of_bid moves bid hmem
  have hlater := horderly.play_stable (Market.IsAtVenue.stable bid venue) ⟨hmem, hat⟩ later
  refine ⟨venue, hat, hlater.2, ?_⟩
  cases hvisible : venue.isVisible with
  | false => exact .inr ⟨rfl, hearlier hvisible⟩
  | true =>
      left
      obtain ⟨item, auction, -, -, hvenue⟩ := hat
      have hfound : floor.market.findVenue venue.id = some venue := by
        rw [horderly.consistent.filed.venues _ venue hvenue, Market.findVenue]
        exact Option.filter_eq_some_iff.mpr ⟨hvenue, hvisible⟩
      refine ⟨hfound, ?_⟩
      rw [Service.perform_getVenue]
      exact congrArg (fun found? : Option Venue => found?.elim _ Except.ok) hfound

/-! A venue is given up, and then a bid is placed on an item that is still offered there. -/

/-- Errands that are run one after the other, each to its end. -/
def lateBid : List (Move Business) :=
  let now : Instant := ⟨⟨19792⟩, default⟩
  [.enter (.errand (.createVenue ⟨"Pier", "1", ""⟩ now)), .serve 0 .answered,
    .enter (.errand (.createAuction ⟨1, ⟨19800⟩, none, none, none⟩ now)),
    .serve 1 .answered, .serve 1 .answered,
    .enter (.errand (.direct (.createFisherman "Kim" now) ⟨nofun, rfl⟩)), .serve 2 .answered,
    .enter (.errand (.createItem ⟨2, 3, "cod", 1, "kg", none, 0⟩ now)),
    .serve 3 .answered, .serve 3 .answered, .serve 3 .answered,
    .enter (.errand (.direct (.createBuyer "Lee" now) ⟨nofun, rfl⟩)), .serve 4 .answered,
    .enter (.errand (.deleteVenue 1 now)), .serve 5 .answered,
    .enter (.errand (.placeBid ⟨4, 5, 100⟩ now)),
    .serve 6 .answered, .serve 6 .answered, .serve 6 .answered, .serve 6 .answered,
    .serve 6 .answered]

/-- Not every bid is at a venue that can still be found. -/
theorem late_bid_at_hidden_venue :
    ¬ ∀ (moves : List (Move Business)),
      let floor := (Floor.initial : Floor Business).play moves
      ∀ bid ∈ floor.market.ledger, ∃ venue,
        floor.market.IsAtVenue bid venue ∧ floor.market.findVenue venue.id = some venue := by
  intro hvisible
  let market := ((Floor.initial : Floor Business).play lateBid).market
  have hbid : ∃ bid, bid ∈ market.ledger := by
    refine List.exists_mem_of_ne_nil _ ?_
    decide +kernel
  have hnone : market.listVenues = [] := by decide +kernel
  obtain ⟨bid, hmem⟩ := hbid
  obtain ⟨venue, -, hfound⟩ := hvisible lateBid bid hmem
  obtain ⟨hvenue, hshown⟩ := Option.filter_eq_some_iff.mp hfound
  have hlisted : venue ∈ market.listVenues :=
    List.mem_filter.mpr ⟨Table.mem_values_iff.mpr ⟨_, hvenue⟩, hshown⟩
  rw [hnone] at hlisted
  cases hlisted

end Floor

end FishMarket
