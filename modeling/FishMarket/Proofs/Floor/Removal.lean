import FishMarket.Proofs.Floor.Cached
import FishMarket.Proofs.Market.Deletion
import FishMarket.Proofs.Market.Listings

/-! # Items of a deleted auction

Whoever deletes an auction lists its items, then deletes it with all its items, and then forgets the
items that were listed. Once an item is gone nobody finds it in the store any more, so nothing new
is cached of it, and what was cached is gone as soon as the item is forgotten. But an item that came
into the auction after the items were listed is deleted without being forgotten.
-/

namespace FishMarket

open Calendar

/-- Whether an item is on record under an id, and belongs to an auction. -/
def Market.Offers (market : Market) (auction id : Int) : Prop :=
  ∃ item, market.items.find? id = some item ∧ item.auctionId = auction

namespace Command

theorem forgetAll_asks (listings : List Listing) :
    (forgetAll listings).Asks fun call => ¬call.IsStore := by
  induction listings with
  | nil => exact trivial
  | cons listing rest ih =>
      rw [forgetAll_cons]
      exact ⟨id, fun _ => ih⟩

end Command

namespace Errand

/-- The auction that an errand has come to delete. -/
def deleted? : (errand : Errand) → errand.Outcome → Option Int
  | deleteAuction id, .ok _ => some id
  | _, _ => none

end Errand

namespace Task

/-- The auction that a task reports to have deleted. -/
def deleted? (task : Task Errand) : Option Int :=
  task.result?.bind (Errand.deleted? task.errand)

theorem of_deleted {task : Task Errand} {auction : Int} (hdeleted : task.deleted? = some auction) :
    ∃ acts dropped, task = ⟨.deleteAuction auction, ⟨acts, .done (.ok ())⟩, dropped⟩ := by
  obtain ⟨errand, ⟨acts, rest⟩, dropped⟩ := task
  cases rest with
  | ask call next => cases hdeleted
  | done outcome =>
      cases errand
      case deleteAuction id =>
        cases outcome with
        | error failure => cases hdeleted
        | ok =>
            cases hdeleted
            exact ⟨acts, dropped, rfl⟩
      all_goals cases hdeleted

end Task

/-! ## What a deletion has listed -/

/-- Whether a task that is about to delete an auction has listed its items, and will forget
those. -/
def Task.HasListed (task : Task Errand) : Prop :=
  ∀ (auction : Int) (course : Course (Except Failure Unit)) (dropped : Bool),
    task = ⟨.deleteAuction auction, course, dropped⟩ →
      course.rest = (Command.deleteAuction auction).run ∨
      (∃ act ∈ course.acts, course.rest =
        Command.deleteListed auction (act.before.market.listItemListings auction)) ∨
      course.rest.Asks fun call => ¬call.IsStore

namespace Floor

theorem hasListed {service : Service} (moves : List (Move Errand)) :
    ∀ task ∈ ((opened service).play moves : Floor Errand).tasks, task.HasListed := by
  refine task_induction (motive := fun _ task => task.HasListed) ?_ ?_ ?_ ?_ moves
  · exact fun move hlisted => hlisted
  · rintro moves errand auction course dropped hstart
    cases hstart
    exact .inl rfl
  · intro moves errand acts call next index reception hlisted act auction course dropped heq
    cases heq
    rcases hlisted auction _ _ rfl with hbegun | ⟨listing, hmem, hrest⟩ | hasks
    · rw [Command.deleteAuction_run] at hbegun
      cases hbegun
      cases reception with
      | answered =>
          exact .inr (.inl ⟨act, List.mem_append_right _ List.mem_cons_self, rfl⟩)
      | refused failure => exact .inr (.inr trivial)
    · rw [Command.deleteListed] at hrest
      cases hrest
      right
      right
      dsimp only
      cases act.answer with
      | ok => exact Command.forgetAll_asks _
      | error failure => exact trivial
    · exact .inr (.inr (hasks.2 _))
  · rintro moves ⟨errand, former, wasDropped⟩ index hlisted auction course dropped heq
    cases heq
    exact hlisted auction former wasDropped rfl

/-- Whoever is about to delete an auction has listed its items, and will forget those. -/
theorem deleting_cases {service : Service} {moves : List (Move Errand)} {index : Nat}
    {auction : Int} {acts : List Act} {dropped : Bool}
    {next : (ServiceCall.store (.deleteAuction auction)).Answer →
      ServiceRoutine (Except Failure Unit)}
    (htask : ((opened service).play moves : Floor Errand).tasks[index]? =
      some ⟨.deleteAuction auction, ⟨acts, .ask (.store (.deleteAuction auction)) next⟩, dropped⟩) :
    ∃ act ∈ acts, .ask (.store (.deleteAuction auction)) next =
      Command.deleteListed auction (act.before.market.listItemListings auction) := by
  rcases hasListed moves _ (List.mem_of_getElem? htask) auction _ dropped rfl with
    hbegun | hlisted | hasks
  · rw [Command.deleteAuction_run] at hbegun
    cases hbegun
  · exact hlisted
  · exact absurd trivial hasks.1

/-! ## Once the item is gone -/

/-- Whether an item is gone and nobody will leave it in the cache. -/
structure Bygone (floor : Floor Errand) (id : Int) : Prop where
  consistent : floor.market.Consistent
  sighted : floor.Sighted
  gone : floor.market.ItemGone id
  unsought : ∀ index, ¬floor.IsCaching index id

variable {floor : Floor Errand} {move : Move Errand} {moves : List (Move Errand)} {index : Nat}
  {auction id : Int}

namespace Bygone

theorem take (hbygone : floor.Bygone id) (move : Move Errand) : (floor.take move).Bygone id where
  consistent := consistent_take hbygone.consistent move
  sighted := hbygone.sighted.take move
  gone := stable_take (Market.ItemGone.stable id) hbygone.gone hbygone.consistent move
  unsought := by
    rintro index ⟨text, ttl, hdue⟩
    rcases hbygone.sighted.caches_take hdue with hbefore | ⟨item, hfound, -⟩
    · exact hbygone.unsought index ⟨text, ttl, hbefore⟩
    · cases hbygone.gone.2.symm.trans hfound

theorem uncached (hbygone : floor.Bygone id) (hnone : floor.service.cachedItem? id = none) :
    (floor.take move).service.cachedItem? id = none := by
  cases hcached : (floor.take move).service.cachedItem? id with
  | none => rfl
  | some text =>
      rcases cachedItem?_take hcached with ⟨hbefore, -⟩ | ⟨index, ttl, -, hdue⟩
      · cases hnone.symm.trans hbefore
      · exact absurd ⟨text, ttl, hdue⟩ (hbygone.unsought index)

/-- An item that is gone and not cached is never found again. -/
theorem absent_play (hbygone : floor.Bygone id) (hnone : floor.service.cachedItem? id = none)
    (moves : List (Move Errand)) : (floor.play moves).market.items.find? id = none ∧
      (floor.play moves).service.cachedItem? id = none := by
  induction moves generalizing floor with
  | nil => exact ⟨hbygone.gone.2, hnone⟩
  | cons move rest ih => exact ih (hbygone.take move) (hbygone.uncached hnone)

end Bygone

/-- Whether the task with a number will forget an item. -/
def WillForget (floor : Floor Errand) (index : Nat) (id : Int) : Prop :=
  ∃ (auction : Int) (acts : List Act) (listings : List Listing) (dropped : Bool),
    floor.tasks[index]? =
        some ⟨.deleteAuction auction, ⟨acts, Command.forgetAll listings⟩, dropped⟩ ∧
      ∃ listing ∈ listings, listing.item.id = id

/-- A task that will forget an item does so still after a move, or the item is forgotten. -/
theorem WillForget.take (hforgets : floor.WillForget index id)
    (hanswered : move.isAnswered = true) :
    (floor.take move).WillForget index id ∨ (floor.take move).service.cachedItem? id = none := by
  obtain ⟨auction, acts, listings, dropped, htask, listing, hmem, hlisting⟩ := hforgets
  obtain ⟨task, hafter, rfl | ⟨errand, earlier, call, next, reception, rfl, heq, rfl⟩ |
    ⟨rfl, rfl⟩⟩ :=
    task_take htask move
  · exact .inl ⟨auction, acts, listings, dropped, hafter, listing, hmem, hlisting⟩
  · obtain rfl := Move.reception_of_isAnswered hanswered
    cases listings with
    | nil => cases hmem
    | cons first rest =>
        rw [Command.forgetAll_cons] at heq
        cases heq
        rcases List.mem_cons.mp hmem with rfl | hlater
        · -- the item is forgotten now
          have hdue : floor.due? index = some (.cache (.delete (Cache.itemKey id))) := by
            rw [← hlisting]
            exact due?_eq_some_iff.mpr ⟨_, _, _, htask⟩
          exact .inr (uncached_of_forgotten hdue)
        · exact .inl ⟨auction, _, rest, false, hafter, listing, hlater, hlisting⟩
  · exact .inl ⟨auction, acts, listings, true, hafter, listing, hmem, hlisting⟩

theorem forgotten_play (hbygone : floor.Bygone id)
    (hforgets : floor.WillForget index id ∨ floor.service.cachedItem? id = none)
    (hanswered : ∀ move ∈ moves, move.isAnswered = true) :
    (floor.play moves).Bygone id ∧ ((floor.play moves).WillForget index id ∨
      (floor.play moves).service.cachedItem? id = none) := by
  induction moves generalizing floor with
  | nil => exact ⟨hbygone, hforgets⟩
  | cons move rest ih =>
      obtain ⟨hmove, hrest⟩ := List.forall_mem_cons.mp hanswered
      refine ih (hbygone.take move) ?_ hrest
      rcases hforgets with hforgets | hnone
      · exact hforgets.take hmove
      · exact .inr (hbygone.uncached hnone)

/-! ## The deletion -/

/-- Whether the task with a number is about to delete an auction, an item belongs to the auction,
and did so when the task listed the items, and nobody is about to leave the item in the cache. -/
structure Removes (floor : Floor Errand) (index : Nat) (auction id : Int) : Prop where
  deletes : ∃ acts next, floor.tasks[index]? =
      some ⟨.deleteAuction auction, ⟨acts, .ask (.store (.deleteAuction auction)) next⟩, false⟩ ∧
    ∀ act ∈ acts, act.before.market.Offers auction id
  belongs : floor.market.Offers auction id
  unsought : ∀ reader, ¬floor.IsCaching reader id

/-- When the auction is deleted, the item is gone. -/
theorem Removes.bygone (hremoves : floor.Removes index auction id)
    (hconsistent : floor.market.Consistent) (hsighted : floor.Sighted)
    (hdeleted : (floor.market.deleteAuction auction).1 = .ok ()) :
    (floor.take (.serve index .answered)).Bygone id := by
  obtain ⟨⟨acts, next, htask, -⟩, ⟨item, hitem, rfl⟩, hunsought⟩ := hremoves
  have hservice := (take_serve htask .answered).1
  have hmarket : (floor.take (.serve index .answered)).market =
      (floor.market.deleteAuction item.auctionId).2 := congrArg Service.market hservice
  have hgone : (floor.take (.serve index .answered)).market.ItemGone id :=
    hmarket ▸ hconsistent.itemGone_of_deleted hitem hdeleted
  refine ⟨consistent_take hconsistent _, hsighted.take _, hgone, ?_⟩
  rintro reader ⟨text, ttl, hdue⟩
  rcases hsighted.caches_take hdue with hbefore | ⟨found, hfound, -, hsame⟩
  · exact hunsought reader ⟨text, ttl, hbefore⟩
  · rw [← hsame] at hfound
    cases hgone.2.symm.trans hfound

/-- When the auction is deleted, the task goes on to forget the item; otherwise it has failed. -/
theorem Removes.forgets {service : Service} (hconsistent : service.market.Consistent)
    {before : List (Move Errand)}
    (hremoves : ((opened service).play before).Removes index auction id) :
    let floor := (opened service).play before
    let after := floor.take (.serve index .answered)
    (floor.market.deleteAuction auction).1 = .ok () ∧ after.WillForget index id ∨
      ∃ acts failure, after.tasks[index]? =
        some ⟨.deleteAuction auction, ⟨acts, .done (.error failure)⟩, false⟩ := by
  intro floor after
  obtain ⟨acts, next, htask, hbelonged⟩ := hremoves.deletes
  obtain ⟨listing, hmem, hrest⟩ := deleting_cases htask
  have hserved := (take_serve htask .answered).2
  rw [Command.deleteListed] at hrest
  cases hrest
  have hanswer : Act.answer ⟨.store (.deleteAuction auction), .answered, floor.service⟩ =
    (floor.market.deleteAuction auction).1 := rfl
  rw [hanswer] at hserved
  cases hdeleted : (floor.market.deleteAuction auction).1 with
  | error failure =>
      rw [hdeleted] at hserved
      exact .inr ⟨_, failure, hserved⟩
  | ok =>
      rw [hdeleted] at hserved
      obtain ⟨moment, -, hmoment⟩ :=
        moment_of_act before _ (List.mem_of_getElem? htask) listing hmem
      have hopened : (opened service : Floor Errand).market.Consistent := hconsistent
      have hthen : listing.before.market.Consistent := hmoment ▸ consistent_play hopened moment
      obtain ⟨item, hitem, rfl⟩ := hbelonged listing hmem
      obtain ⟨row, hrow, hlisted⟩ := Market.mem_listItemListings hitem
      refine .inl ⟨rfl, _, _, _, false, hserved, row, hrow, ?_⟩
      rw [hlisted]
      exact hthen.filed.items id item hitem

/-- Somebody deletes an auction, among others who may do anything. When the auction is deleted, an
item belongs to it that did so when the items were listed, and nobody is about to leave the item in
the cache. Then, once the deletion has ended well, everybody who comes to look for the item is told
that it is not there, after at most three calls. -/
theorem deleted_items_are_not_found {service : Service}
    (hconsistent : service.market.Consistent) {before later latest : List (Move Errand)}
    {index ttl : Nat} {auction id : Int}
    (hremoves : ((opened service).play before).Removes index auction id)
    (hanswered : ∀ move ∈ later ++ latest, move.isAnswered = true)
    (hdeleted : (((opened service).play (before ++ .serve index .answered :: later)).tasks[index]?.bind
      Task.deleted?) = some auction) :
    let floor := (opened service).play (before ++ .serve index .answered :: later)
    ∃ (course : Course (Except Failure Item)) (dropped : Bool),
      (floor.play (.enter (.getItem ttl id) :: latest)).tasks[floor.tasks.length]? =
        some ⟨.getItem ttl id, course, dropped⟩ ∧
      (∀ outcome, course.result? = some outcome → outcome = .error (.notFound (.item id))) ∧
      (3 ≤ course.acts.length → ∃ outcome, course.result? = some outcome) := by
  intro floor
  let there : Floor Errand := (opened service).play before
  have hopened : (opened service : Floor Errand).market.Consistent := hconsistent
  have hthere : there.market.Consistent := consistent_play hopened before
  have hnobody : (opened service : Floor Errand).Sighted :=
    fun task hmem => absurd hmem List.not_mem_nil
  have hsighted : there.Sighted := hnobody.play before
  have hfloor : floor = (there.take (.serve index .answered)).play later := play_append _ _ _
  obtain ⟨hlater, hlatest⟩ := List.forall_mem_append.mp hanswered
  have habsent : floor.Bygone id ∧ floor.service.cachedItem? id = none := by
    obtain ⟨task, hended, htask⟩ := Option.bind_eq_some_iff.mp hdeleted
    obtain ⟨acts, dropped, rfl⟩ := Task.of_deleted htask
    change floor.tasks[index]? = _ at hended
    rw [hfloor] at hended ⊢
    rcases hremoves.forgets hconsistent with ⟨hdeleted, hforgets⟩ | ⟨earlier, failure, hfailed⟩
    · obtain ⟨hbygone, ⟨other, former, listings, given, htask, listing, hmem, -⟩ | hnone⟩ :=
        forgotten_play (hremoves.bygone hthere hsighted hdeleted) (.inl hforgets) hlater
      · -- the task has ended, so there is nothing that it will still forget
        cases listings with
        | nil => cases hmem
        | cons first rest =>
            rw [Command.forgetAll_cons] at htask
            cases hended.symm.trans htask
      · exact ⟨hbygone, hnone⟩
    · obtain ⟨given, htask⟩ := ended_play hfailed later
      cases hended.symm.trans htask
  have hafter := (habsent.1.take (.enter (.getItem ttl id))).absent_play
    (habsent.1.uncached habsent.2)
  rw [play_cons]
  refine result_of_seek (floor.getElem?_enter (.getItem ttl id)) hlatest ⟨?_, ?_⟩
  · intro earlier hbegins text item hcached
    cases (hafter earlier).2.symm.trans hcached
  · intro earlier hbegins
    rw [(hafter earlier).1]
    rfl

/-! An item that is cached is listed and forgotten. -/

/-- The item that is cached. -/
def cachedItem : Item where
  id := 4
  auctionId := 2
  fishermanId := 3
  fishType := "cod"
  quantity := 1
  unit := "kg"
  status := .pending
  sortOrder := 0
  createdAt := ⟨⟨19792⟩, default⟩

/-- A service with an auction of one item, which is cached. -/
def withCachedItem : Service :=
  let now : Instant := ⟨⟨19792⟩, default⟩
  let steps : List Market.Step := [.call (.createVenue ⟨"Pier", "1", ""⟩ now),
    .call (.createAuction ⟨1, ⟨19800⟩, none, none, none⟩ now), .call (.createFisherman "Kim" now),
    .call (.createItem ⟨2, 3, "cod", 1, "kg", none, 0⟩ now)]
  { market := Market.initial.takeAll steps
    cache := MemoryCache.empty.insert 0 (Cache.itemKey 4)
      (String.ofList (Recorded.json cachedItem)) 5000
    moment := 0 }

theorem cached_item_is_not_found :
    let floor := (opened withCachedItem : Floor Errand).play
      [.enter (.deleteAuction 2), .serve 0 .answered, .serve 0 .answered, .serve 0 .answered]
    (withCachedItem.perform (Query.getItem 5000 4)).1.toOption = some cachedItem ∧
    ∃ (course : Course (Except Failure Item)) (dropped : Bool),
      (floor.play [.enter (.getItem 5000 4), .serve 1 .answered, .serve 1 .answered]).tasks[1]? =
        some ⟨.getItem 5000 4, course, dropped⟩ ∧
      (∀ outcome, course.result? = some outcome → outcome = .error (.notFound (.item 4))) ∧
      (3 ≤ course.acts.length → ∃ outcome, course.result? = some outcome) := by
  have hconsistent : withCachedItem.market.Consistent := Market.Consistent.initial.takeAll _
  have hitem : withCachedItem.market.Offers 2 4 := ⟨_, rfl, rfl⟩
  have hremoves : ((opened withCachedItem : Floor Errand).play
      [.enter (.deleteAuction 2), .serve 0 .answered]).Removes 0 2 4 := by
    refine ⟨⟨_, _, rfl, ?_⟩, hitem, ?_⟩
    · intro act hmem
      obtain rfl := List.mem_singleton.mp hmem
      exact hitem
    · rintro reader ⟨text, ttl, hdue⟩
      cases List.mem_singleton.mp (mem_pending_of_due hdue)
  -- nothing has been forgotten yet, and the item is found
  have hfound : (withCachedItem.perform (Query.getItem 5000 4)).1.toOption = some cachedItem := by
    decide +kernel
  refine ⟨hfound, ?_⟩
  exact deleted_items_are_not_found hconsistent hremoves (by decide) (by decide +kernel)

/-! An item is created between the listing and the deletion, and somebody finds it then. -/

/-- A deletion lists no item; then one is created and cached. -/
def beforeDeletion : List (Move Errand) :=
  let now : Instant := ⟨⟨19792⟩, default⟩
  [.enter (.createVenue ⟨"Pier", "1", ""⟩ now), .serve 0 .answered,
    .enter (.createAuction ⟨1, ⟨19800⟩, none, none, none⟩ now),
    .serve 1 .answered, .serve 1 .answered,
    .enter (.direct (.createFisherman "Kim" now) (StoreCall.createFisherman_isPlain "Kim" now)),
    .serve 2 .answered,
    .enter (.deleteAuction 2), .serve 3 .answered,
    .enter (.createItem ⟨2, 3, "cod", 1, "kg", none, 0⟩ now),
    .serve 4 .answered, .serve 4 .answered, .serve 4 .answered,
    .enter (.getItem 5000 4), .serve 5 .answered, .serve 5 .answered, .serve 5 .answered]

/-- Not every item that belonged to an auction when that was deleted is told to be gone. -/
theorem late_item_is_found :
    ¬ ∀ (before later latest : List (Move Errand)) (index ttl : Nat) (auction id : Int),
      let there : Floor Errand := (opened .initial).play before
      let floor := there.play (.serve index .answered :: later)
      (∃ acts next, there.tasks[index]? =
        some ⟨.deleteAuction auction, ⟨acts, .ask (.store (.deleteAuction auction)) next⟩, false⟩) →
      there.market.Offers auction id →
      (∀ reader, ¬there.IsCaching reader id) →
      (∀ move ∈ before ++ later ++ latest, move.isAnswered = true) →
      floor.tasks[index]?.bind Task.deleted? = some auction →
      (floor.play (.enter (.getItem ttl id) :: latest)).tasks[floor.tasks.length]?.bind
        Task.found? = none := by
  intro hgone
  let there : Floor Errand := (opened .initial).play beforeDeletion
  have hitem : (there.market.items.find? 4).map Item.auctionId = some 2 := by decide +kernel
  have hpending : there.tasks.filterMap Task.pending? = [.store (.deleteAuction 2)] := by
    decide +kernel
  have hnone := hgone beforeDeletion [] [.serve 6 .answered] 3 5000 2 4 ⟨_, _, rfl⟩
    (Option.map_eq_some_iff.mp hitem) ?_ (by decide) (by decide +kernel)
  · revert hnone
    decide +kernel
  · rintro reader ⟨text, ttl, hdue⟩
    have hmem := hpending ▸ mem_pending_of_due hdue
    cases List.mem_singleton.mp hmem

end Floor

end FishMarket
