import FishMarket.Proofs.Floor.Cached
import FishMarket.Proofs.Floor.Lifecycle
import FishMarket.Proofs.Service.Publishing

/-! # Races for items

Some change items, others look for them, and nobody does anything else. Each call then leaves all
items as they are, or it writes the status of one item. Whoever writes an item has not yet taken it
out of the cache, so between the write and the deletion he can be told from all others.
-/

namespace FishMarket

open Calendar

/-! ## Errands that race -/

namespace Errand

/-- The item that an errand is to change. -/
def changes? : Errand → Option Int
  | placeBid place _ => some place.itemId
  | updateItemStatus id _ => some id
  | _ => none

/-- The item that an errand has changed, if it has come to a good end. -/
def changed? : (errand : Errand) → errand.Outcome → Option Int
  | placeBid place _, .ok _ => some place.itemId
  | updateItemStatus id _, .ok _ => some id
  | _, _ => none

/-- Whether an errand is to find an item or to change one. -/
def isRacer : Errand → Bool
  | placeBid _ _ => true
  | updateItemStatus _ _ => true
  | getItem _ _ => true
  | _ => false

/-- How far an errand that has changed an item has come when it ends. -/
def Publishes (errand : Errand) (phase : Publication) (outcome : errand.Outcome) : Prop :=
  ∀ id, errand.changed? outcome = some id →
    errand.changes? = some id ∧ phase.written = true ∧ phase.forgotten = true

theorem publishes {errand : Errand} (hracer : errand.isRacer = true) :
    errand.routine.Fulfils (Publication.contract errand.changes?) errand.Publishes .initial := by
  cases errand with
  | placeBid place now =>
      refine (Command.placeBid_publishes place now).mono (fun _ _ => id) rfl
        fun phase outcome hends id hchanged => ?_
      cases outcome with
      | error failure => cases hchanged
      | ok bid => exact ⟨hchanged, hends bid rfl⟩
  | updateItemStatus item status =>
      refine (Command.updateItemStatus_publishes item status).mono (fun _ _ => id) rfl
        fun phase outcome hends id hchanged => ?_
      cases outcome with
      | error failure => cases hchanged
      | ok row => exact ⟨hchanged, hends row rfl⟩
  | getItem ttl item =>
      have hpermits (phase : Publication) (call : ServiceCall) (hreads : call.IsReading) :
          Publication.Permits none phase call := by
        cases call with
        | cache call => exact trivial
        | store call => cases call <;> first | exact trivial | cases hreads
      have hfulfils : (getItem ttl item).routine.Fulfils (Publication.contract none)
          (fun _ _ => True) .initial := .of_permitted (Query.getItem_reads ttl item) hpermits
      exact hfulfils.mono (fun _ _ => id) rfl fun _ _ _ _ => nofun
  | _ => cases hracer

end Errand

/-! ## What a call does to the items -/

/-- What a call does to the items when it is made by somebody who has come so far in changing one:
it leaves them alone, or it writes the status of that one, which has not been forgotten yet. -/
inductive Publication.Effect (target? : Option Int) (phase : Publication) (call : ServiceCall)
    (answer : call.Answer) (items after : Table Item) : Prop where
  | none (hitems : after = items) (hwrites : call.writesItem answer = false)
  | written (id : Int) (item : Item) (status : ItemStatus) (htarget : target? = some id)
      (hforgotten : phase.forgotten = false) (hwrites : call.writesItem answer = true)
      (hfound : items.find? id = some item)
      (hitems : ∀ other, after.find? other =
        if other = id then some { item with status := status } else items.find? other)

namespace Publication.Effect

variable {target? : Option Int} {phase : Publication} {service : Service} {call : ServiceCall}

/-- Placing a bid writes no item but its own, and that by the commit. -/
theorem of_places {place : PlaceBid} {now : Instant} {settlement : Settlement}
    (hplaces : Settlement.Places place now settlement call)
    (hfits : service.market.Fits settlement)
    (hbid : ∀ bid, settlement.bid? = some bid → bid.itemId = place.itemId)
    (hpermits : Permits (some place.itemId) phase call) :
    let reply := service.receive call .answered
    Effect (some place.itemId) phase call reply.1 service.market.items reply.2.market.items := by
  intro reply
  have hwrites (answer : call.Answer) : call.writesItem answer = call.commits answer := by
    cases hplaces with
    | commit => cases answer <;> rfl
    | begin | mark | stage | rollback | forget => rfl
  obtain ⟨hstride, -⟩ := hplaces.stride hfits .answered
  cases hstride with
  | hidden hentities _ hcommits =>
      exact .none (congrArg Market.Entities.items hentities) ((hwrites _).trans hcommits)
  | forgets _ _ _ hmarket hcommits =>
      exact .none (congrArg Market.items hmarket) ((hwrites _).trans hcommits)
  | settles transaction bid hphase hready hservice hcommits =>
      subst hphase
      obtain ⟨item, hfound⟩ := Table.contains_iff.mp (hfits.contains hready)
      have hitems : reply.2.market.items = (service.market.entities.settle bid).items :=
        (congrArg (fun after => after.market.items) hservice).trans
          (congrArg Market.Entities.items hfits.entities_committed)
      have hforgotten : phase.forgotten = false := by
        cases hplaces with
        | commit => exact hpermits
        | rollback => cases hcommits
      rw [hbid bid rfl] at hfound
      refine .written place.itemId item .sold rfl hforgotten ((hwrites _).trans hcommits) hfound
        fun other => ?_
      rw [hitems, Market.Entities.settle, hbid bid rfl]
      exact Table.find?_modify_of_found hfound _ other

/-- Changing a status writes no item but its own. -/
theorem of_updateItemStatus {id : Int} {status : ItemStatus}
    (hpermits : Permits target? phase (.store (.updateItemStatus id status))) :
    let reply := service.receive (.store (.updateItemStatus id status)) .answered
    Effect target? phase _ reply.1 service.market.items reply.2.market.items := by
  simp only [Service.receive, Service.answer, Market.answer]
  unfold Market.updateItemStatus
  split
  next => exact .none rfl rfl
  next item hfound =>
    split
    next =>
      exact .written id item status hpermits.1 hpermits.2 rfl hfound
        (Table.find?_modify_of_found hfound _)
    next => exact .none rfl rfl

/-- Of all calls that have nothing to do with transactions only that one writes an item. -/
theorem of_plain (hplain : call.IsPlain) (hpermits : Permits target? phase call) :
    let reply := service.receive call .answered
    Effect target? phase call reply.1 service.market.items reply.2.market.items := by
  cases call with
  | cache call => exact .none rfl rfl
  | store call =>
      have hquiet (call : StoreCall) (hquiet : call.isQuiet = true) :
          (service.receive (.store call) .answered).2.market.items = service.market.items :=
        (Market.sameRows_answer hquiet).items
      cases call
      case updateItemStatus => exact of_updateItemStatus hpermits
      case begin => exact absurd rfl hplain.1
      case commit | rollback | abandon | setItemStatusIn | insertBidIn => cases hplain.2
      case createItem | deleteAuction => cases hpermits
      case createBuyer | createFisherman => exact .none rfl rfl
      all_goals exact .none (hquiet _ rfl) rfl

end Publication.Effect

/-! ## How far tasks have come -/

namespace Task

/-- The item that a task reports to have changed. -/
def changed? (task : Task Errand) : Option Int :=
  task.result?.bind (Errand.changed? task.errand)

/-- How far a task has come in changing its item. -/
def publication (task : Task Errand) : Publication :=
  task.course.reached (Publication.contract task.errand.changes?) .initial

/-- Whether a task is a racer, and changes its item as it should. -/
def Races (task : Task Errand) : Prop :=
  task.errand.isRacer = true ∧
    task.course.Keeps (Publication.contract task.errand.changes?) task.errand.Publishes .initial

theorem Races.start {errand : Errand} (hracer : errand.isRacer = true) :
    (start errand : Task Errand).Races :=
  ⟨hracer, Errand.publishes hracer⟩

theorem Races.of_changed {task : Task Errand} (hraces : task.Races) {id : Int}
    (hchanged : task.changed? = some id) :
    task.errand.changes? = some id ∧ task.publication = ⟨true, true⟩ := by
  obtain ⟨outcome, hresult, hchanged⟩ := Option.bind_eq_some_iff.mp hchanged
  obtain ⟨hchanges, hwritten, hforgotten⟩ := hraces.2.result hresult id hchanged
  exact ⟨hchanges, Publication.ext hwritten hforgotten⟩

end Task

/-- Whether a move is one of a race: only racers come in, and all calls are answered. -/
def Move.isOfRace : Move Errand → Bool
  | .enter errand => errand.isRacer
  | move => move.isAnswered

theorem Move.isAnswered_of_isOfRace {move : Move Errand} (hmove : move.isOfRace = true) :
    move.isAnswered = true := by
  cases move with
  | enter errand => rfl
  | serve | drop | refuseBid | wait => exact hmove

namespace Floor

variable {floor : Floor Errand} {move : Move Errand} {index bystanders : Nat} {id : Int}
  {phase : Publication}

/-- Whether the task with a number is to change an item, and has come so far. -/
def HasCome (floor : Floor Errand) (index : Nat) (id : Int) (phase : Publication) : Prop :=
  ∃ task, floor.tasks[index]? = some task ∧ task.errand.changes? = some id ∧
    task.publication = phase

/-- Whether the task with a number has written an item. -/
def HasWritten (floor : Floor Errand) (index : Nat) (id : Int) : Prop :=
  ∃ phase, floor.HasCome index id phase ∧ phase.written = true

/-- Whether the task with a number has written an item and not yet taken it out of the cache. -/
def StandsBetween (floor : Floor Errand) (index : Nat) (id : Int) : Prop :=
  floor.HasCome index id ⟨true, false⟩

theorem HasCome.lt_length (hcome : floor.HasCome index id phase) :
    index < floor.tasks.length := by
  obtain ⟨task, htask, -⟩ := hcome
  exact (List.getElem?_eq_some_iff.mp htask).1

/-- What a move does to a task that has come so far. -/
theorem HasCome.take (hcome : floor.HasCome index id phase) (move : Move Errand) :
    (floor.take move).HasCome index id phase ∨
      ∃ call reception, move = .serve index reception ∧ floor.due? index = some call ∧
        (floor.take move).HasCome index id
          (phase.after (some id) call (floor.service.receive call reception).1) := by
  obtain ⟨former, hformer, hchanges, rfl⟩ := hcome
  obtain ⟨task, htask, rfl | ⟨errand, acts, call, next, reception, rfl, rfl, rfl⟩ | ⟨rfl, rfl⟩⟩ :=
    task_take hformer move
  · exact .inl ⟨task, htask, hchanges, rfl⟩
  · refine .inr ⟨call, reception, rfl, due?_eq_some_iff.mpr ⟨_, _, _, hformer⟩, _, htask,
      hchanges, ?_⟩
    rw [Task.publication, Course.reached_append, ← hchanges]
    rfl
  · exact .inl ⟨_, htask, hchanges, rfl⟩

/-- How a task may have come so far with a move. -/
theorem hasCome_cases (hcome : (floor.take move).HasCome index id phase) :
    floor.HasCome index id phase ∨ phase = .initial ∨
      ∃ errand acts call next reception, move = .serve index reception ∧
        let task : Task Errand := ⟨errand, ⟨acts, .ask call next⟩, false⟩
        floor.tasks[index]? = some task ∧ errand.changes? = some id ∧
          phase = task.publication.after (some id) call
            (floor.service.receive call reception).1 := by
  obtain ⟨task, htask, hchanges, rfl⟩ := hcome
  rcases task_cases htask with hsame | ⟨errand, -, -, rfl⟩ |
    ⟨errand, acts, call, next, reception, hmove, hserved, rfl⟩ | ⟨former, -, hformer, rfl⟩
  · exact .inl ⟨task, hsame, hchanges, rfl⟩
  · exact .inr (.inl rfl)
  · refine .inr (.inr ⟨errand, acts, call, next, reception, hmove, hserved, hchanges, ?_⟩)
    rw [Task.publication, Course.reached_append, ← hchanges]
    rfl
  · exact .inl ⟨former, hformer, hchanges, rfl⟩

/-! ## Races on the floor -/

/-- Whether all tasks race, except the first ones, which have nothing left to do. -/
structure Racing (floor : Floor Errand) (bystanders : Nat) : Prop where
  orderly : Orderly floor.service floor.tasks
  sighted : floor.Sighted
  idle : ∀ index < bystanders, ∃ task, floor.tasks[index]? = some task ∧ task.pending? = none
  races : ∀ index task, bystanders ≤ index → floor.tasks[index]? = some task → task.Races

namespace Racing

theorem take (hracing : floor.Racing bystanders) (hmove : move.isOfRace = true) :
    (floor.take move).Racing bystanders where
  orderly := (hracing.orderly.take move).1
  sighted := hracing.sighted.take move
  idle index hindex := by
    obtain ⟨former, hformer, hpending⟩ := hracing.idle index hindex
    obtain ⟨task, htask, rfl | ⟨errand, acts, call, next, reception, -, rfl, -⟩ | ⟨-, rfl⟩⟩ :=
      task_take hformer move
    · exact ⟨task, htask, hpending⟩
    · cases hpending
    · exact ⟨_, htask, rfl⟩
  races index task hindex htask := by
    rcases task_cases htask with hsame | ⟨errand, rfl, -, rfl⟩ |
      ⟨errand, acts, call, next, reception, -, hserved, rfl⟩ | ⟨former, -, hformer, rfl⟩
    · exact hracing.races index task hindex hsame
    · exact .start hmove
    · obtain ⟨hracer, hkeeps⟩ := hracing.races index _ hindex hserved
      exact ⟨hracer, hkeeps.act reception _⟩
    · exact hracing.races index former hindex hformer

theorem play {moves : List (Move Errand)} (hracing : floor.Racing bystanders)
    (hmoves : ∀ move ∈ moves, move.isOfRace = true) : (floor.play moves).Racing bystanders := by
  induction moves generalizing floor with
  | nil => exact hracing
  | cons move rest ih =>
      obtain ⟨hmove, hrest⟩ := List.forall_mem_cons.mp hmoves
      exact ih (hracing.take hmove) hrest

/-- Whoever makes a call races, and the call does to the items what it should. -/
theorem effect (hracing : floor.Racing bystanders) {errand : Errand} {acts : List Act}
    {call : ServiceCall} {next : call.Answer → ServiceRoutine errand.Outcome}
    (htask : floor.tasks[index]? = some ⟨errand, ⟨acts, .ask call next⟩, false⟩) :
    let task : Task Errand := ⟨errand, ⟨acts, .ask call next⟩, false⟩
    let reply := floor.service.receive call .answered
    bystanders ≤ index ∧ Publication.Effect errand.changes? task.publication call reply.1
      floor.market.items reply.2.market.items := by
  intro task reply
  have hindex : bystanders ≤ index := by
    by_contra hearly
    obtain ⟨other, hother, hpending⟩ := hracing.idle index (Nat.lt_of_not_le hearly)
    obtain rfl := Option.some.inj (hother.symm.trans htask)
    cases hpending
  refine ⟨hindex, ?_⟩
  have hpermits := (hracing.races index task hindex htask).2.1
  have hsound := (hracing.orderly.sound task (List.mem_of_getElem? htask)).running rfl
  cases errand with
  | placeBid place now =>
      refine .of_places hsound.promise.1 hsound.fits (fun bid hbid => ?_) hpermits
      exact (hsound.records (hsound.reflects.2 bid hbid)).itemId
  | _ => exact .of_plain hsound.promise.1.2 hpermits

/-- A move leaves all items as they are, or an item has been written and not yet forgotten. -/
theorem items_take (hracing : floor.Racing bystanders) (hmove : move.isOfRace = true) :
    (floor.take move).market.items = floor.market.items ∨
      ∃ index id item status, bystanders ≤ index ∧
        (floor.take move).StandsBetween index id ∧
        floor.market.items.find? id = some item ∧
        ∀ other, (floor.take move).market.items.find? other =
          if other = id then some { item with status := status }
          else floor.market.items.find? other := by
  cases hact : floor.act? move with
  | none =>
      left
      rcases floor.take_cases move with ⟨act, hsome, -⟩ | ⟨-, hentities⟩
      · cases hact.symm.trans hsome
      · exact congrArg Market.Entities.items hentities
  | some act =>
      obtain ⟨index, errand, acts, next, rfl, htask, hbefore, hservice, hafter⟩ := act_cases hact
      obtain ⟨call, reception, before⟩ := act
      obtain rfl := Move.reception_of_isAnswered (Move.isAnswered_of_isOfRace hmove)
      obtain rfl : before = floor.service := hbefore
      have hmarket := congrArg Service.market hservice
      obtain ⟨hindex, heffect⟩ := hracing.effect htask
      cases heffect with
      | none hitems => exact .inl ((congrArg Market.items hmarket).trans hitems)
      | written id item status htarget hforgotten hwrites hfound hitems =>
          refine .inr ⟨index, id, item, status, hindex, ⟨_, hafter, htarget, ?_⟩, hfound, ?_⟩
          · rw [Task.publication, Course.reached_append, ← hforgotten]
            exact Publication.after_of_writes hwrites
          · intro other
            rw [← hitems other]
            exact congrArg (fun market => market.items.find? other) hmarket

/-- A move leaves an item as it is, or the item has been written and not yet forgotten. -/
theorem item_take (hracing : floor.Racing bystanders) (hmove : move.isOfRace = true) (id : Int) :
    (floor.take move).market.items.find? id = floor.market.items.find? id ∨
      ∃ index, bystanders ≤ index ∧ (floor.take move).StandsBetween index id := by
  rcases hracing.items_take hmove with
    hsame | ⟨index, other, item, status, hindex, hcome, -, hitems⟩
  · exact .inl (congrArg (Table.find? · id) hsame)
  · by_cases hid : id = other
    · exact .inr ⟨index, hindex, hid ▸ hcome⟩
    · exact .inl ((hitems id).trans (if_neg hid))

/-- An item that is on record stays there. -/
theorem found_take (hracing : floor.Racing bystanders) (hmove : move.isOfRace = true)
    (hfound : ∃ item, floor.market.items.find? id = some item) :
    ∃ item, (floor.take move).market.items.find? id = some item := by
  rcases hracing.items_take hmove with hsame | ⟨-, other, item, status, -, -, -, hitems⟩
  · exact hsame ▸ hfound
  · rw [hitems]
    split
    next => exact ⟨_, rfl⟩
    next => exact hfound

/-- An item that has been written is on record. -/
theorem found_of_written (hracing : floor.Racing bystanders) (hmove : move.isOfRace = true)
    (hwritten : (floor.take move).HasWritten index id) :
    floor.HasWritten index id ∨ ∃ item, floor.market.items.find? id = some item := by
  obtain ⟨phase, hcome, hwritten⟩ := hwritten
  rcases hasCome_cases hcome with hbefore | rfl |
    ⟨errand, acts, call, next, reception, rfl, htask, hchanges, rfl⟩
  · exact .inl ⟨phase, hbefore, hwritten⟩
  · cases hwritten
  · obtain rfl := Move.reception_of_isAnswered (Move.isAnswered_of_isOfRace hmove)
    cases (hracing.effect htask).2 with
    | none hitems hwrites =>
        refine .inl ⟨_, ⟨_, htask, hchanges, rfl⟩, ?_⟩
        rwa [Publication.after, hwrites, Bool.or_false] at hwritten
    | written other item status htarget hforgotten hwrites hfound hitems =>
        obtain rfl := Option.some.inj (hchanges.symm.trans htarget)
        exact .inr ⟨item, hfound⟩

/-- Whoever has written an item and forgotten it has done so in this order. -/
theorem forgets_of_published (hracing : floor.Racing bystanders) (hmove : move.isOfRace = true)
    (hcome : (floor.take move).HasCome index id ⟨true, true⟩) :
    floor.HasCome index id ⟨true, true⟩ ∨ move = .serve index .answered ∧
      floor.due? index = some (.cache (.delete (Cache.itemKey id))) := by
  rcases hasCome_cases hcome with hbefore | hinitial |
    ⟨errand, acts, call, next, reception, rfl, htask, hchanges, hphase⟩
  · exact .inl hbefore
  · cases hinitial
  · obtain rfl := Move.reception_of_isAnswered (Move.isAnswered_of_isOfRace hmove)
    have hdue : floor.due? index = some call := due?_eq_some_iff.mpr ⟨_, _, _, htask⟩
    cases hforgets : call.forgetsItem id with
    | true => exact .inr ⟨rfl, ServiceCall.eq_of_forgetsItem hforgets ▸ hdue⟩
    | false =>
        simp only [Publication.after, Option.any_some, hforgets, Bool.or_false] at hphase
        obtain ⟨hwritten, hforgotten⟩ := Publication.mk.inj hphase
        cases (hracing.effect htask).2 with
        | none hitems hwrites =>
            rw [hwrites, Bool.or_false] at hwritten
            exact .inl ⟨_, htask, hchanges, Publication.ext hwritten.symm hforgotten.symm⟩
        | written other item status htarget hnot => cases hforgotten.trans hnot

end Racing

end Floor

end FishMarket
