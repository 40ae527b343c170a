import FishMarket.Proofs.Floor.Errands
import FishMarket.Proofs.Floor.Tasks
import FishMarket.Proofs.Service.Caching

/-! # Cached items on the floor

What is cached of an item was left there by a task, which had found the item in the store at its
turn before. Between the two turns of the task the item may have been changed by others. Whoever
looks for an item comes to what was cached, or to what was stored, at some moment after he came in.
-/

namespace FishMarket

/-- Whether a move is no call, or a call that is answered. -/
def Move.isAnswered {Errand : Type} : Move Errand → Bool
  | .serve _ (.refused _) => false
  | _ => true

theorem Move.reception_of_isAnswered {Errand : Type} {index : Nat} {reception : Reception}
    (hanswered : (Move.serve index reception : Move Errand).isAnswered = true) :
    reception = .answered := by
  cases reception with
  | answered => rfl
  | refused failure => cases hanswered

/-- What has been sighted was on record, and stays so. -/
theorem Act.of_sighted {act : Act} {id : Int} {item : Item}
    (hsighted : act.call.sighted? act.answer = some (id, item)) :
    act.before.market.items.find? id = some item ∧ act.after.market = act.before.market := by
  obtain ⟨call, reception, before⟩ := act
  cases call with
  | cache call => cases hsighted
  | store call =>
      cases call
      case findItem other =>
        cases reception with
        | refused failure => cases hsighted
        | answered =>
            simp only [answer, Service.receive, Service.answer, Market.answer] at hsighted
            cases hfound : before.market.items.find? other with
            | none =>
                rw [hfound] at hsighted
                cases hsighted
            | some found =>
                rw [hfound] at hsighted
                cases hsighted
                exact ⟨hfound, rfl⟩
      all_goals cases hsighted

namespace Errand

/-- No errand leaves an item in the cache but one that it has just found. -/
theorem sights (errand : Errand) : errand.routine.Fulfils sighting (fun _ _ => True) none := by
  have hquiet (call : ServiceCall) (hcall : call.IsQuiet) : call.CachesNoItem :=
    hcall.isStore.cachesNoItem
  have hother {entity : Cache.Entity} (hentity : entity ≠ .item) (id other : Int) :
      Cache.key entity id ≠ Cache.itemKey other :=
    fun hkey => hentity (Cache.key_injective hkey).1
  cases errand with
  | getItem ttl id => exact Query.getItem_sighting ttl id
  | placeBid place now =>
      refine sighting_of_asks ((Command.placeBid_fulfils place now).asks ?_) none
      intro phase call hplaces
      cases hplaces <;> exact trivial
  | deleteAuction id =>
      exact sighting_of_asks (Command.deleteAuction_asks hquiet trivial fun _ => trivial) none
  | createItem item now => exact sighting_of_asks (Command.createItem_asks hquiet trivial) none
  | updateItemStatus id status =>
      refine sighting_of_asks (Command.updateItemStatus_asks hquiet status ?_ trivial) none
      exact fun _ => trivial
  | getBuyer ttl id =>
      refine sighting_of_asks (Action.lookup_asks _ ?_) none
      exact Action.readThrough_asks trivial (Action.store_asks trivial) fun _ other =>
        hother (by decide) id other
  | getFisherman ttl id =>
      refine sighting_of_asks (Action.lookup_asks _ ?_) none
      exact Action.readThrough_asks trivial (Action.store_asks trivial) fun _ other =>
        hother (by decide) id other
  | direct call hplain =>
      have hasks : (direct call hplain).routine.Asks ServiceCall.CachesNoItem :=
        ⟨trivial, fun _ => trivial⟩
      exact sighting_of_asks hasks none
  | _ => exact sighting_of_asks ((routine_quiet rfl).mono hquiet) none

end Errand

namespace Floor

variable {floor : Floor Errand} {move : Move Errand} {index : Nat} {id : Int} {text : String}

/-- Whether all tasks have left items in the cache, and will leave them, only as they were just
found. -/
def Sighted (floor : Floor Errand) : Prop :=
  ∀ task ∈ floor.tasks, task.course.Keeps sighting (fun _ _ => True) none

theorem Sighted.take (hsighted : floor.Sighted) (move : Move Errand) : (floor.take move).Sighted :=
  keeps_take Errand.sights hsighted move

theorem Sighted.play (hsighted : floor.Sighted) (moves : List (Move Errand)) :
    (floor.play moves).Sighted := by
  induction moves generalizing floor with
  | nil => exact hsighted
  | cons move rest ih => exact ih (hsighted.take move)

/-- Whether the task with a number has found an item and is about to leave it in the cache. -/
def IsCaching (floor : Floor Errand) (index : Nat) (id : Int) : Prop :=
  ∃ text ttl, floor.due? index = some (.cache (.set (Cache.itemKey id) text ttl))

/-- A task that is about to leave an item in the cache was so before a move, or it has just found
the item. -/
theorem Sighted.caches_take (hsighted : floor.Sighted) {ttl : Nat}
    (hdue : (floor.take move).due? index = some (.cache (.set (Cache.itemKey id) text ttl))) :
    floor.due? index = some (.cache (.set (Cache.itemKey id) text ttl)) ∨
      ∃ item, floor.market.items.find? id = some item ∧
        text = String.ofList (Recorded.json item) ∧ (floor.take move).market = floor.market := by
  obtain ⟨errand, acts, next, htask⟩ := due?_eq_some_iff.mp hdue
  have hkeeps := hsighted.take move _ (List.mem_of_getElem? htask)
  obtain ⟨item, hsight, htext⟩ := hkeeps.1 id rfl
  rcases task_cases htask with hsame | ⟨other, -, -, hstart⟩ |
    ⟨other, acts', call, next', reception, hmove, hserved, heq⟩ | ⟨former, -, -, heq⟩
  · left
    rw [due?, hsame]
    rfl
  · obtain rfl : acts = [] := congrArg (fun task => task.course.acts) hstart
    cases hsight
  · right
    have hacts := congrArg (fun task => task.course.acts) heq
    dsimp only at hacts
    subst hacts
    rw [Course.reached_append] at hsight
    obtain ⟨hfound, hmarket⟩ := Act.of_sighted hsight
    obtain ⟨hservice, -⟩ := take_serve hserved reception
    refine ⟨item, hfound, htext, ?_⟩
    rw [hmove]
    exact (congrArg Service.market hservice).trans hmarket
  · cases congrArg Task.dropped heq

/-- What is cached of an item after a move was cached before, or it is left there by the move. -/
theorem cachedItem?_take (hcached : (floor.take move).service.cachedItem? id = some text) :
    floor.service.cachedItem? id = some text ∧
        (∀ index, move = .serve index .answered →
          floor.due? index ≠ some (.cache (.delete (Cache.itemKey id)))) ∨
      ∃ index ttl, move = .serve index .answered ∧
        floor.due? index = some (.cache (.set (Cache.itemKey id) text ttl)) := by
  cases hact : floor.act? move with
  | none =>
      obtain ⟨hcache, hmoment⟩ := cache_of_idle hact
      left
      constructor
      · rw [Service.cachedItem?, hcache] at hcached
        exact MemoryCache.find?_of_le hmoment hcached
      · rintro index rfl hdue
        cases hact.symm.trans (congrArg (Option.map _) hdue)
  | some act =>
      obtain ⟨index, errand, acts, next, rfl, hfound, hbefore, hservice, -⟩ := act_cases hact
      have hdue : floor.due? index = some act.call := due?_eq_some_iff.mpr ⟨_, _, _, hfound⟩
      rw [hservice] at hcached
      rcases Service.cachedItem?_receive hcached with ⟨hold, hother⟩ | ⟨ttl, hcall, hanswered⟩
      · left
        refine ⟨hbefore ▸ hold, fun other hmove hforgets => ?_⟩
        injection hmove with hindex hanswered
        subst hindex
        exact hother ⟨Option.some.inj (hdue.symm.trans hforgets), hanswered⟩
      · exact .inr ⟨index, ttl, hanswered ▸ rfl, hdue.trans (congrArg some hcall)⟩

theorem uncached_of_forgotten
    (hdue : floor.due? index = some (.cache (.delete (Cache.itemKey id)))) :
    (floor.take (.serve index .answered)).service.cachedItem? id = none := by
  cases hcached : (floor.take (.serve index .answered)).service.cachedItem? id with
  | none => rfl
  | some text =>
      rcases cachedItem?_take hcached with ⟨-, hother⟩ | ⟨other, ttl, hmove, hsets⟩
      · exact absurd hdue (hother index rfl)
      · injection hmove with hindex
        subst hindex
        cases hdue.symm.trans hsets

end Floor

/-! ## Looking for an item -/

/-- The item that an errand has come to find. -/
def Errand.found? : (errand : Errand) → errand.Outcome → Option Item
  | .getItem _ _, .ok item => some item
  | _, _ => none

/-- The item that a task reports to have found. -/
def Task.found? (task : Task Errand) : Option Item :=
  task.result?.bind (Errand.found? task.errand)

/-- Whether a task looks for an item, and all that it has been told has some property. -/
def Task.Seeks (task : Task Errand) (ttl : Nat) (id : Int) (told : Except Failure Item → Prop) :
    Prop :=
  ∃ (course : Course (Except Failure Item)) (dropped : Bool),
    task = ⟨.getItem ttl id, course, dropped⟩ ∧ Query.Seeks ttl id told course.rest ∧
      course.rest.EndsWithin (3 - course.acts.length)

namespace Floor

variable {floor : Floor Errand} {index ttl : Nat} {id : Int} {told : Except Failure Item → Prop}
  {moves : List (Move Errand)}

/-- Whether all that can be learnt of an item in the course of moves has some property. -/
structure Tells (floor : Floor Errand) (moves : List (Move Errand)) (id : Int)
    (told : Except Failure Item → Prop) : Prop where
  cached : ∀ earlier, earlier <+: moves → ∀ text item,
    (floor.play earlier).service.cachedItem? id = some text →
      Record.readWhole Item text.toList = .ok item → told (.ok item)
  stored : ∀ earlier, earlier <+: moves →
    told (Action.sought (.item id) (.ok ((floor.play earlier).market.items.find? id)))

theorem seeks_play (hbegun : floor.tasks[index]? = some (.start (.getItem ttl id)))
    (hanswered : ∀ move ∈ moves, move.isAnswered = true) (htells : floor.Tells moves id told) :
    ∃ task, (floor.play moves).tasks[index]? = some task ∧ task.Seeks ttl id told := by
  have hfollow : ∃ task, (floor.play moves).tasks[index]? = some task ∧
      (moves <+: moves → task.Seeks ttl id told) := by
    refine follow (motive := fun before task => before <+: moves → task.Seeks ttl id told)
      hbegun ?_ ?_ ?_ ?_ moves
    · exact fun _ => ⟨_, _, rfl, .begun rfl, Query.getItem_endsWithin ttl id⟩
    · intro before task move hseeks hbegins
      exact hseeks ((List.prefix_append before [move]).trans hbegins)
    · intro before errand acts call next reception hseeks act hbegins
      have hbefore := (List.prefix_append before [Move.serve index reception]).trans hbegins
      obtain ⟨course, dropped, heq, hseeks, hends⟩ := hseeks hbefore
      cases heq
      have hmem : Move.serve index reception ∈ moves :=
        hbegins.subset (List.mem_append_right before List.mem_cons_self)
      obtain rfl := Move.reception_of_isAnswered (hanswered _ hmem)
      have hnext := hseeks.receive _ (htells.cached before hbefore) (htells.stored before hbefore)
      refine ⟨_, _, rfl, hnext, ?_⟩
      rw [List.length_append, List.length_singleton, ← Nat.sub_sub]
      exact hends.2 act.answer
    · intro before task hseeks hbegins
      obtain ⟨course, dropped, rfl, hseeks, hends⟩ :=
        hseeks ((List.prefix_append before _).trans hbegins)
      exact ⟨course, true, rfl, hseeks, hends⟩
  obtain ⟨task, htask, hseeks⟩ := hfollow
  exact ⟨task, htask, hseeks List.prefix_rfl⟩

/-- Whoever looks for an item comes, with three calls at most, to what he is told: an item that is
cached at some moment after he came in, or what is stored then. -/
theorem result_of_seek (hbegun : floor.tasks[index]? = some (.start (.getItem ttl id)))
    (hanswered : ∀ move ∈ moves, move.isAnswered = true) (htells : floor.Tells moves id told) :
    ∃ (course : Course (Except Failure Item)) (dropped : Bool),
      (floor.play moves).tasks[index]? = some ⟨.getItem ttl id, course, dropped⟩ ∧
      (∀ outcome, course.result? = some outcome → told outcome) ∧
      (3 ≤ course.acts.length → ∃ outcome, course.result? = some outcome) := by
  obtain ⟨task, htask, course, dropped, rfl, hseeks, hends⟩ :=
    seeks_play hbegun hanswered htells
  refine ⟨course, dropped, htask, fun outcome hresult => ?_, fun hlength => ?_⟩
  · obtain ⟨acts, rest⟩ := course
    cases rest with
    | done value =>
        obtain rfl := Option.some.inj hresult
        exact hseeks.result
    | ask call next => cases hresult
  · rw [Nat.sub_eq_zero_of_le hlength] at hends
    exact Course.ended_of_endsWithin hends

end Floor

end FishMarket
