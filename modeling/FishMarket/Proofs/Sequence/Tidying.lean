import FishMarket.Proofs.Market.Listings
import FishMarket.Proofs.Sequence.Visits
import FishMarket.Proofs.Settlement.Progress

/-! # What commands forget

A routine is tidy if the items that it changes or removes are among those that it takes out of the
cache. Three commands do so: the one that writes the status of an item forgets that item, the one
that places a bid forgets the item that it sells, and the one that deletes an auction forgets all
items of the auction. All other business leaves every item that there is as it is.
-/

namespace FishMarket

open Calendar

variable {α β ε : Type}

/-! ## Keys that are forgotten -/

/-- The keys that a call takes out of the cache. -/
def ServiceCall.forgotten : ServiceCall → List String
  | .cache (.delete key) => [key]
  | _ => []

namespace ServiceRoutine

/-- The keys that a routine takes out of the cache, if the cache never knows an answer. -/
def forgotten : ServiceRoutine α → Market → List String
  | .done _, _ => []
  | .ask call next, market =>
    call.forgotten ++ forgotten (next (Market.alone call market).1) (Market.alone call market).2

theorem forgotten_bind (routine : ServiceRoutine α) (next : α → ServiceRoutine β)
    (market : Market) :
    forgotten (routine.bind next) market = routine.forgotten market ++
      (next (routine.run Market.alone market).1).forgotten
        (routine.run Market.alone market).2 := by
  induction routine generalizing market with
  | done value => rfl
  | ask call rest ih =>
      simp only [Routine.bind, forgotten, List.append_assoc]
      rw [ih]
      rfl

theorem forgotten_forM (keys : List α) (key : α → String) (market : Market) :
    forgotten (keys.forM fun value => Action.forget (key value)).run market = keys.map key := by
  induction keys with
  | nil => rfl
  | cons value rest ih =>
      refine (forgotten_bind (Action.forget (key value)).run _ market).trans ?_
      simp only [List.map_cons]
      exact congrArg (key value :: ·) ih

theorem run_forM_forget (keys : List α) (key : α → String) (market : Market) :
    ((keys.forM fun value => Action.forget (key value)).run.run Market.alone market).2 =
      market := by
  induction keys with
  | nil => rfl
  | cons value rest ih => exact ih

/-! ## Tidy routines -/

/-- Whether a routine, on a market without a cache, leaves the row of each item as it is, unless it
takes the item out of the cache. -/
def Tidy (routine : ServiceRoutine α) (market : Market) : Prop :=
  ∀ id item, market.items.find? id = some item →
    (routine.run Market.alone market).2.items.find? id = some item ∨
      Cache.itemKey id ∈ routine.forgotten market

namespace Tidy

variable {routine : ServiceRoutine α} {market : Market}

theorem of_eq (hitems : (routine.run Market.alone market).2.items = market.items) :
    routine.Tidy market :=
  fun _ _ hitem => .inl (hitems ▸ hitem)

theorem bind {next : α → ServiceRoutine β} (hfirst : routine.Tidy market)
    (hconsistent : market.Consistent)
    (hnext : ∀ value (between : Market), between.Consistent → (next value).Tidy between) :
    Tidy (routine.bind next) market := by
  intro id item hitem
  rw [Routine.run_bind, forgotten_bind, List.mem_append]
  rcases hfirst id item hitem with hkept | hforgotten
  · have hbetween := Market.alone_stable Market.Consistent.stable routine hconsistent hconsistent
    exact (hnext _ _ hbetween id item hkept).imp_right .inr
  · exact .inr (.inl hforgotten)

theorem andThen {first : ExceptT ε (Routine ServiceCall ServiceCall.Answer) α}
    {next : α → ExceptT ε (Routine ServiceCall ServiceCall.Answer) β}
    (hfirst : Tidy first.run market) (hconsistent : market.Consistent)
    (hnext : ∀ value (between : Market), between.Consistent → Tidy (next value).run between) :
    Tidy (first >>= next).run market := by
  refine ServiceRoutine.Tidy.bind hfirst hconsistent fun outcome between hbetween => ?_
  cases outcome with
  | ok value => exact hnext value between hbetween
  | error failure => exact .of_eq rfl

theorem checked {p : Prop} [Decidable p] {failure : ε}
    {next : PUnit → ExceptT ε (Routine ServiceCall ServiceCall.Answer) α}
    (hnext : Tidy (next ⟨⟩).run market) :
    Tidy (if p then throw failure >>= next else next ⟨⟩).run market := by
  split
  next => exact .of_eq rfl
  next => exact hnext

/-- A call to the store that loses the rows of some items has to be followed by forgetting these. -/
theorem store {call : StoreCall} {next : call.Answer → ServiceRoutine α} {reply : call.Answer}
    {after : Market} (hanswer : market.answer call = (reply, after))
    (hrows : ∀ id item, market.items.find? id = some item →
      after.items.find? id = some item ∨ Cache.itemKey id ∈ (next reply).forgotten after)
    (hnext : (next reply).Tidy after) : Tidy (.ask (.store call) next) market := by
  intro id item hitem
  have halone : Market.alone (.store call) market = (reply, after) := hanswer
  simp only [Routine.run, forgotten, halone]
  rcases hrows id item hitem with hkept | hforgotten
  · exact hnext id item hkept
  · exact .inr hforgotten

theorem store_of_eq {call : StoreCall} {next : call.Answer → ServiceRoutine α}
    {reply : call.Answer} {after : Market} (hanswer : market.answer call = (reply, after))
    (hitems : after.items = market.items) (hnext : (next reply).Tidy after) :
    Tidy (.ask (.store call) next) market :=
  .store hanswer (fun _ _ hitem => .inl (hitems ▸ hitem)) hnext

end Tidy

end ServiceRoutine

open ServiceRoutine (Tidy)

/-! ## Calls that leave the items as they are -/

/-- Whether a call leaves all items as they are, although it may add one. -/
def StoreCall.keepsItems : StoreCall → Bool
  | .commit _ => false
  | .deleteAuction _ => false
  | .updateItemStatus _ _ => false
  | _ => true

/-- Whether a call of the service leaves all items as they are. -/
def ServiceCall.KeepsItems : ServiceCall → Prop
  | .store call => call.keepsItems = true
  | .cache _ => True

theorem ServiceCall.IsQuiet.keepsItems {call : ServiceCall} (hquiet : call.IsQuiet) :
    call.KeepsItems := by
  cases call with
  | cache call => exact trivial
  | store call => cases call <;> first | exact rfl | cases hquiet

theorem ServiceCall.IsReading.keepsItems {call : ServiceCall} (hreads : call.IsReading) :
    call.KeepsItems := by
  cases call with
  | cache call => exact trivial
  | store call => cases call <;> first | exact rfl | cases hreads

namespace Market

variable {market : Market} {call : StoreCall}

theorem find?_item_answer (hkeeps : call.keepsItems = true) (hconsistent : market.Consistent)
    {id : Int} {item : Item} (hitem : market.items.find? id = some item) :
    (market.answer call).2.items.find? id = some item := by
  by_cases hquiet : call.isQuiet = true
  · rw [(sameRows_answer hquiet).items]
    exact hitem
  cases call with
  | createItem new now =>
      simp only [answer, createItem]
      split
      next =>
        obtain ⟨-, -, hnew, -⟩ := hconsistent.numbered.find?_next hconsistent.filed
        exact Table.find?_insert_of_new hnew hitem _
      next => exact hitem
  | setItemStatusIn transaction other status =>
      simp only [answer, setItemStatusIn]
      split <;> exact hitem
  | insertBidIn transaction place now =>
      simp only [answer, insertBidIn]
      split
      next => exact hitem
      next => split <;> exact hitem
  | commit | deleteAuction | updateItemStatus => cases hkeeps
  | begin | rollback | abandon | createBuyer | createFisherman => exact hitem
  | _ => exact absurd rfl hquiet

end Market

theorem ServiceRoutine.Tidy.of_keeps {routine : ServiceRoutine α} {market : Market}
    (hkeeps : routine.Asks ServiceCall.KeepsItems) (hconsistent : market.Consistent) :
    routine.Tidy market := by
  intro id item hitem
  left
  induction routine generalizing market with
  | done value => exact hitem
  | ask call next ih =>
      cases call with
      | store call =>
          exact ih _ (hkeeps.2 _) (hconsistent.take (.call call))
            (Market.find?_item_answer hkeeps.1 hconsistent hitem)
      | cache call => cases call <;> exact ih _ (hkeeps.2 _) hconsistent hitem

/-! ## Commands -/

namespace Command

variable {market : Market}

theorem updateItemStatus_tidy (hconsistent : market.Consistent) (id : Int) (status : String) :
    Tidy (updateItemStatus id status).run market := by
  refine .andThen (.of_keeps (.ended _) hconsistent) hconsistent fun status market hconsistent => ?_
  refine .andThen (.of_keeps (Action.lookup_asks _ (Action.store_asks rfl)) hconsistent) hconsistent
    fun current market hconsistent => ?_
  refine .checked ?_
  -- the item is forgotten in the one case in which it is written
  rcases market.updateItemStatus_cases id status with heq | ⟨written, heq⟩
  · have hanswer : market.answer (.updateItemStatus id status) = (.ok none, market) := by
      rw [Market.answer, heq]
    refine ServiceRoutine.Tidy.store_of_eq hanswer rfl (.of_keeps ?_ hconsistent)
    exact .andThen (Action.lookup_asks _ (Action.store_asks rfl)) fun _ => .thrown _
  · have hanswer : market.answer (.updateItemStatus id status) = (.ok (some written), { market with
        items := market.items.modify id fun _ => written }) := by
      rw [Market.answer, heq]
    refine ServiceRoutine.Tidy.store hanswer (fun other item hitem => ?_) (.of_eq rfl)
    rw [Table.find?_modify]
    split
    next hsame => exact .inr (hsame ▸ List.mem_cons_self)
    next => exact .inl hitem

theorem deleteAuction_tidy (hconsistent : market.Consistent) (id : Int) :
    Tidy (deleteAuction id).run market := by
  refine ServiceRoutine.Tidy.store_of_eq rfl rfl ?_
  rcases market.deleteAuction_cases id with ⟨failure, heq⟩ | heq
  · exact ServiceRoutine.Tidy.store_of_eq heq rfl (.of_eq rfl)
  · refine ServiceRoutine.Tidy.store heq (fun other item hitem => ?_) (.of_eq ?_)
    · rw [Table.find?_filter, hitem]
      by_cases hauction : item.auctionId = id
      · right
        -- the listings were made before the deletion, so none of its items is missing there
        obtain ⟨listing, hmem, hlisting⟩ := Market.mem_listItemListings hitem
        change _ ∈ ServiceRoutine.forgotten ((market.listItemListings id).forM fun listing =>
          Action.forget (Cache.itemKey listing.item.id)).run _
        rw [ServiceRoutine.forgotten_forM, ← hauction]
        refine List.mem_map.mpr ⟨listing, hmem, ?_⟩
        rw [hlisting, hconsistent.filed.items other item hitem]
      · left
        simp [hauction]
    · exact congrArg Market.items (ServiceRoutine.run_forM_forget _ _ _)

theorem placeBid_tidy (place : PlaceBid) (now : Instant) (market : Market) :
    Tidy (placeBid place now).run market := by
  unfold placeBid
  cases place.validate with
  | error failure => exact .of_eq rfl
  | ok =>
      let opened := market.begin.2
      let transaction := market.begin.1
      have hopened : opened.Fits (.opened transaction) := market.fits_begun
      refine ServiceRoutine.Tidy.store_of_eq rfl rfl ?_
      rcases opened.setItemStatusIn_cases transaction place.itemId .sold with
        heq | ⟨failure, heq⟩
      · let marked := opened.stage transaction (.itemStatus place.itemId .sold)
        refine ServiceRoutine.Tidy.store_of_eq heq rfl ?_
        rcases marked.insertBidIn_cases transaction place now with
          ⟨bid, hrecords, heq⟩ | ⟨failure, refuse, heq⟩
        · let staged := marked.takeId.stage transaction (.bid bid)
          -- nothing but the sale and the bid is staged, so the commit touches no other item
          have hstaged : staged.Fits (.staged transaction bid) := by
            refine Market.Fits.stage ?_
            rw [hrecords.itemId]
            exact hopened.mark place.itemId
          refine ServiceRoutine.Tidy.store_of_eq heq rfl ?_
          rcases staged.commit_cases transaction with ⟨failure, heq⟩ | ⟨-, heq⟩
          · exact ServiceRoutine.Tidy.store_of_eq heq rfl (.of_eq rfl)
          · refine ServiceRoutine.Tidy.store heq (fun id item hitem => ?_) (.of_eq rfl)
            by_cases hsame : id = bid.itemId
            · rw [hsame, hrecords.itemId]
              exact .inr List.mem_cons_self
            · rw [hstaged.find?_item_committed hsame]
              exact .inl hitem
        · exact ServiceRoutine.Tidy.store_of_eq heq rfl (.store_of_eq rfl rfl (.of_eq rfl))
      · exact ServiceRoutine.Tidy.store_of_eq heq rfl (.store_of_eq rfl rfl (.of_eq rfl))

end Command

namespace Errand

/-- Every errand is tidy, unless an item is changed or deleted by hand. -/
theorem routine_tidy {errand : Errand} (hregular : errand.isRegular = true) {market : Market}
    (hconsistent : market.Consistent) : Tidy errand.routine market := by
  cases errand with
  | placeBid place now => exact Command.placeBid_tidy place now market
  | deleteAuction id => exact Command.deleteAuction_tidy hconsistent id
  | updateItemStatus id status => exact Command.updateItemStatus_tidy hconsistent id status
  | createItem item now =>
      refine .of_keeps ?_ hconsistent
      exact Command.createItem_asks (fun _ => ServiceCall.IsQuiet.keepsItems) rfl
  | getItem ttl id =>
      refine .of_keeps ?_ hconsistent
      exact (Query.getItem_reads ttl id).mono fun _ => ServiceCall.IsReading.keepsItems
  | getBuyer ttl id =>
      refine .of_keeps ?_ hconsistent
      exact (Query.getBuyer_reads ttl id).mono fun _ => ServiceCall.IsReading.keepsItems
  | getFisherman ttl id =>
      refine .of_keeps ?_ hconsistent
      exact (Query.getFisherman_reads ttl id).mono fun _ => ServiceCall.IsReading.keepsItems
  | direct call hplain =>
      refine .of_keeps ⟨?_, fun _ => trivial⟩ hconsistent
      cases call with
      | commit transaction => cases hplain.2
      | deleteAuction | updateItemStatus => cases hregular
      | _ => exact rfl
  | _ =>
      refine .of_keeps ?_ hconsistent
      exact (routine_quiet rfl).mono fun _ => ServiceCall.IsQuiet.keepsItems

end Errand

end FishMarket
