import FishMarket.Proofs.Market.Consistency
import FishMarket.Proofs.Service.Course
import FishMarket.Proofs.Settlement.Protocol

/-! # Progress of a settlement

While a settlement is under way, what is staged under its transaction is what it has staged itself,
whatever others do meanwhile: they have transactions of their own. So nothing of it can be seen
before the commit, and the commit records the sale and the bid in one step.
-/

namespace FishMarket

open Calendar

/-- The entities once the item of a bid is sold and the bid is on record. -/
def Market.Entities.settle (entities : Market.Entities) (bid : Bid) : Market.Entities :=
  { entities with
    items := entities.items.modify bid.itemId fun item => { item with status := .sold }
    ledger := entities.ledger ++ [bid] }

namespace Market

variable {market after : Market} {named : Option TransactionId} {phase : Settlement}

/-- Whether the transaction of a settlement holds what the settlement has staged. -/
def Fits (market : Market) (phase : Settlement) : Prop :=
  ∀ transaction, phase.transaction? = some transaction →
    market.staged.find? transaction = some phase.writes

/-- A change leaves alone what is staged under the transactions that it does not name. -/
theorem Change.find?_staged (hhandled : market.Handled) (hchange : Change market named after)
    {transaction : TransactionId} {writes : List StagedWrite}
    (hfound : market.staged.find? transaction = some writes)
    (hnamed : named ≠ some transaction) : after.staged.find? transaction = some writes := by
  cases hchange with
  | nothing | idTaken | refusalSet | venueAdded | venueGivenUp | auctionAdded | auctionWritten
  | auctionDeleted | itemAdded | itemWritten | buyerAdded | fishermanAdded => exact hfound
  | begun =>
      -- the new handle is greater than all that are open
      have hle := hhandled transaction writes hfound
      simp only [begin, Table.find?_insert]
      rw [if_neg (by omega)]
      exact hfound
  | statusStaged other | bidStaged other =>
      have hother : transaction ≠ other := fun hsame => hnamed (congrArg some hsame.symm)
      simp only [stage, takeId, Table.find?_modify]
      rw [if_neg hother]
      exact hfound
  | closed other =>
      have hother : transaction ≠ other := fun hsame => hnamed (congrArg some hsame.symm)
      simp only [close, Table.find?_erase]
      rw [if_neg hother]
      exact hfound

theorem Fits.change (hfits : market.Fits phase) (hhandled : market.Handled)
    (hchange : Change market named after)
    (hnamed : ∀ transaction, phase.transaction? = some transaction → named ≠ some transaction) :
    after.Fits phase := fun transaction hopen =>
  hchange.find?_staged hhandled (hfits transaction hopen) (hnamed transaction hopen)

theorem Fits.committed (hfits : market.Fits phase) {other : TransactionId}
    (hother : phase.transaction? ≠ some other) : (market.committed other).Fits phase := by
  intro transaction hopen
  rw [committed_eq, Table.find?_erase, if_neg]
  · exact hfits transaction hopen
  · rintro rfl
    exact hother hopen

theorem find?_begun (market : Market) :
    market.begin.2.staged.find? market.begin.1 = some [] := by
  simp only [begin, Table.find?_insert, if_pos]

theorem find?_stage {transaction : TransactionId} {writes : List StagedWrite}
    (hfound : market.staged.find? transaction = some writes) (write : StagedWrite) :
    (market.stage transaction write).staged.find? transaction = some (writes ++ [write]) := by
  simp only [stage, Table.find?_modify, if_pos, hfound, Option.map_some]

/-! The calls of a settlement keep what is staged in step with how far it has come. -/

theorem fits_begun (market : Market) : market.begin.2.Fits (.opened market.begin.1) := by
  intro transaction hopen
  obtain rfl := Option.some.inj hopen
  exact market.find?_begun

theorem Fits.mark {transaction : TransactionId} (hfits : market.Fits (.opened transaction))
    (item : Int) :
    (market.stage transaction (.itemStatus item .sold)).Fits (.marked transaction item) := by
  intro _ hopen
  obtain rfl := Option.some.inj hopen
  exact find?_stage (hfits transaction rfl) _

theorem Fits.stage {transaction : TransactionId} {bid : Bid}
    (hfits : market.Fits (.marked transaction bid.itemId)) :
    (market.takeId.stage transaction (.bid bid)).Fits (.staged transaction bid) := by
  intro _ hopen
  obtain rfl := Option.some.inj hopen
  exact find?_stage (hfits transaction rfl) (.bid bid)

theorem Fits.writesOf_eq {transaction : TransactionId} {bid : Bid}
    (hfits : market.Fits (.staged transaction bid)) :
    market.writesOf transaction = [.itemStatus bid.itemId .sold, .bid bid] := by
  rw [writesOf, hfits transaction rfl]
  rfl

/-- The item of a staged bid is there when the commit goes through. -/
theorem Fits.contains {transaction : TransactionId} {bid : Bid}
    (hfits : market.Fits (.staged transaction bid)) (hready : market.Committable transaction) :
    market.items.contains bid.itemId = true := by
  have hwrite : StagedWrite.bid bid ∈ market.writesOf transaction := by
    rw [hfits.writesOf_eq]
    exact List.mem_cons_of_mem _ List.mem_cons_self
  exact hready.contains hwrite

/-- A commit of a staged settlement records its bid and the sale of its item, and no more. -/
theorem Fits.entities_committed {transaction : TransactionId} {bid : Bid}
    (hfits : market.Fits (.staged transaction bid)) :
    (market.committed transaction).entities = market.entities.settle bid := by
  rw [committed_eq, hfits.writesOf_eq]
  rfl

theorem Fits.find?_item_committed {transaction : TransactionId} {bid : Bid}
    (hfits : market.Fits (.staged transaction bid)) {id : Int} (hother : id ≠ bid.itemId) :
    (market.committed transaction).items.find? id = market.items.find? id := by
  have hitems : (market.committed transaction).items = (market.entities.settle bid).items :=
    congrArg Entities.items hfits.entities_committed
  rw [hitems, Entities.settle, Table.find?_modify, if_neg hother]
  rfl

end Market

/-! ## Calls and their effects -/

namespace Settlement

/-- Whether a bid is the one that was to be placed. -/
structure Records (place : PlaceBid) (now : Instant) (bid : Bid) : Prop where
  itemId : bid.itemId = place.itemId
  buyerId : bid.buyerId = place.buyerId
  price : bid.price = place.price
  createdAt : bid.createdAt = now

end Settlement

namespace Market

variable (market : Market) (transaction : TransactionId)

/-- A status is staged, or nothing is done. -/
theorem setItemStatusIn_cases (id : Int) (status : ItemStatus) :
    market.setItemStatusIn transaction id status =
        (.ok (), market.stage transaction (.itemStatus id status)) ∨
      ∃ failure, market.setItemStatusIn transaction id status = (.error failure, market) := by
  unfold setItemStatusIn
  split
  next => exact .inl rfl
  next => exact .inr ⟨_, rfl⟩

/-- A bid is staged as it was to be placed. Otherwise at most the order to refuse a bid has been
carried out. -/
theorem insertBidIn_cases (place : PlaceBid) (now : Instant) :
    (∃ bid, Settlement.Records place now bid ∧ market.insertBidIn transaction place now =
        (.ok bid, market.takeId.stage transaction (.bid bid))) ∨
      ∃ failure refuse, market.insertBidIn transaction place now =
        (.error failure, { market with refuseNextBid := refuse }) := by
  unfold insertBidIn
  split
  next => exact .inr ⟨_, _, rfl⟩
  next =>
    split
    next => exact .inl ⟨_, ⟨rfl, rfl, rfl, rfl⟩, rfl⟩
    next => exact .inr ⟨_, _, rfl⟩

end Market

namespace Service

variable (service : Service) (transaction : TransactionId) (reception : Reception)

theorem receive_setItemStatusIn_cases (id : Int) (status : ItemStatus) :
    service.receive (.store (.setItemStatusIn transaction id status)) reception =
        (.ok (), { service with
          market := service.market.stage transaction (.itemStatus id status) }) ∨
      ∃ failure, service.receive (.store (.setItemStatusIn transaction id status)) reception =
        (.error failure, service) := by
  cases reception with
  | refused failure => exact .inr ⟨failure, rfl⟩
  | answered =>
      simp only [receive, answer, Market.answer]
      rcases service.market.setItemStatusIn_cases transaction id status with heq | ⟨failure, heq⟩
      · exact .inl (by rw [heq])
      · exact .inr ⟨failure, by rw [heq]⟩

theorem receive_insertBidIn_cases (place : PlaceBid) (now : Instant) :
    (∃ bid, Settlement.Records place now bid ∧
      service.receive (.store (.insertBidIn transaction place now)) reception =
        (.ok bid, { service with
          market := service.market.takeId.stage transaction (.bid bid) })) ∨
      ∃ failure refuse, service.receive (.store (.insertBidIn transaction place now)) reception =
        (.error failure, { service with
          market := { service.market with refuseNextBid := refuse } }) := by
  cases reception with
  | refused failure => exact .inr ⟨failure, _, rfl⟩
  | answered =>
      simp only [receive, answer, Market.answer]
      rcases service.market.insertBidIn_cases transaction place now with
        ⟨bid, hrecords, heq⟩ | ⟨failure, refuse, heq⟩
      · exact .inl ⟨bid, hrecords, by rw [heq]⟩
      · exact .inr ⟨failure, refuse, by rw [heq]⟩

end Service

namespace Settlement

variable {place : PlaceBid} {now : Instant} {phase : Settlement}

/-- What a call of a settlement does, given its answer and the service before and after. -/
inductive Stride (place : PlaceBid) (phase : Settlement) (call : ServiceCall) (before : Service)
    (answer : call.Answer) (after : Service) : Prop where
  /-- Nothing can be seen of the call. -/
  | hidden (hentities : after.market.entities = before.market.entities)
      (hcache : after.cache = before.cache) (hcommits : call.commits answer = false)
      (hbefore : phase.settled? = none) (hafter : (phase.after call answer).settled? = none)
      (hbid : ∀ bid, (phase.after call answer).bid? = some bid → call.staged? answer = some bid)
  /-- The call is the commit. -/
  | settles (transaction : TransactionId) (bid : Bid) (hphase : phase = staged transaction bid)
      (hready : before.market.Committable transaction)
      (hservice : after = { before with market := before.market.committed transaction })
      (hcommits : call.commits answer = true) (hstaged : call.staged? answer = none)
      (hafter : phase.after call answer = settled bid)
  /-- The call takes the item out of the cache. -/
  | forgets (bid : Bid) (hphase : phase = settled bid)
      (hcall : call = .cache (.delete (Cache.itemKey place.itemId)))
      (hmarket : after.market = before.market) (hcommits : call.commits answer = false)
      (hstaged : call.staged? answer = none) (hafter : phase.after call answer = announced bid)

/-- The bid that a placement stages is the one that was to be placed. -/
theorem Places.records {call : ServiceCall} (hplaces : Places place now phase call)
    {service : Service} {reception : Reception} {bid : Bid}
    (hstaged : call.staged? (service.receive call reception).1 = some bid) :
    Records place now bid := by
  cases hplaces with
  | begin | mark | commit | rollback | forget => cases hstaged
  | stage transaction =>
      rcases service.receive_insertBidIn_cases transaction reception place now with
        ⟨staged, hrecords, heq⟩ | ⟨failure, refuse, heq⟩
      · rw [heq] at hstaged
        exact Option.some.inj hstaged ▸ hrecords
      · rw [heq] at hstaged
        cases hstaged

theorem settled?_of_transaction {transaction : TransactionId}
    (hopen : phase.transaction? = some transaction) : phase.settled? = none := by
  cases phase with
  | opened | marked | staged => rfl
  | idle | settled | announced => cases hopen

/-- Every call by which a bid is placed is hidden, or it is the commit or the last one; and what
is staged afterwards is again what the settlement has staged. -/
theorem Places.stride {call : ServiceCall} (hplaces : Places place now phase call)
    {service : Service} (hfits : service.market.Fits phase) (reception : Reception) :
    let reply := service.receive call reception
    Stride place phase call service reply.1 reply.2 ∧
      reply.2.market.Fits (phase.after call reply.1) := by
  intro reply
  cases hplaces with
  | begin =>
      cases reception with
      | refused failure => exact ⟨.hidden rfl rfl rfl rfl rfl nofun, nofun⟩
      | answered =>
          exact ⟨.hidden rfl rfl rfl rfl rfl nofun, service.market.fits_begun⟩
  | mark transaction =>
      rcases service.receive_setItemStatusIn_cases transaction reception place.itemId .sold with
        heq | ⟨failure, heq⟩
      · simp only [reply, heq]
        exact ⟨.hidden rfl rfl rfl rfl rfl nofun, hfits.mark place.itemId⟩
      · simp only [reply, heq]
        exact ⟨.hidden rfl rfl rfl rfl rfl nofun, hfits⟩
  | stage transaction =>
      rcases service.receive_insertBidIn_cases transaction reception place now with
        ⟨bid, hrecords, heq⟩ | ⟨failure, refuse, heq⟩
      · simp only [reply, heq]
        refine ⟨.hidden rfl rfl rfl rfl rfl ?_, ?_⟩
        · intro _ hbid
          exact hbid
        · -- the item that was marked is that of the bid
          rw [← hrecords.itemId] at hfits
          exact hfits.stage
      · simp only [reply, heq]
        exact ⟨.hidden rfl rfl rfl rfl rfl nofun, hfits⟩
  | commit transaction bid =>
      rcases service.receive_commit_cases transaction reception with
        ⟨failure, heq⟩ | ⟨hready, heq⟩
      · simp only [reply, heq]
        exact ⟨.hidden rfl rfl rfl rfl rfl nofun, nofun⟩
      · simp only [reply, heq]
        exact ⟨.settles transaction bid rfl hready rfl rfl rfl rfl, nofun⟩
  | rollback transaction hopen =>
      have hbefore := settled?_of_transaction hopen
      cases reception with
      | refused failure => exact ⟨.hidden rfl rfl rfl hbefore rfl nofun, nofun⟩
      | answered => exact ⟨.hidden rfl rfl rfl hbefore rfl nofun, nofun⟩
  | forget bid =>
      cases reception with
      | refused failure => exact ⟨.forgets bid rfl rfl rfl rfl rfl rfl, nofun⟩
      | answered => exact ⟨.forgets bid rfl rfl rfl rfl rfl rfl, nofun⟩

end Settlement

end FishMarket
