import FishMarket.Command
import FishMarket.Proofs.Service.Caching
import FishMarket.Proofs.Service.Interleaved

/-! # Changes of an item's status

Whoever changes the status of an item looks at it, writes, and then forgets what is cached of it, or
looks once more if the write has found nothing that it may write to. So the write decides, and the
cache is touched only after a write.
-/

namespace FishMarket

open ServiceRoutine (Leaves)

namespace ItemStatus

theorem parse_name (status : ItemStatus) : parse status.name = .ok status := by
  rw [parse, ofName?_name]

/-- Only the names of statuses can be read. -/
theorem parse_of_unnamed {text : String} (hunnamed : ∀ status : ItemStatus, status.name ≠ text) :
    parse text = .error (.validation (.unknownItemStatus text)) := by
  have hnone : ofName? text = none :=
    List.find?_eq_none.mpr fun status _ => by simpa using hunnamed status
  rw [parse, hnone]

/-- Whether an item may be given a status: it may not if it is sold and would not be so any more. -/
theorem allows_iff {current target : ItemStatus} :
    current.allows target = true ↔ (current = sold → target = sold) := by
  cases current <;> cases target <;> decide

end ItemStatus

namespace Market

variable {market : Market} {id : Int} {status : ItemStatus}

/-- Whether there is an item under an id that may be given a status. -/
def ItemAllows (id : Int) (status : ItemStatus) (market : Market) : Prop :=
  ∃ item, market.items.find? id = some item ∧ (item.status = .sold → status = .sold)

theorem itemAllows_of_allowed {item : Item} (hitem : market.items.find? id = some item)
    (hallowed : item.status.allows status = true) : market.ItemAllows id status :=
  ⟨item, hitem, ItemStatus.allows_iff.mp hallowed⟩

/-- What stands under an id that allows no status is sold. -/
theorem not_itemAllows_iff : ¬ market.ItemAllows id status ↔
    ∀ item, market.items.find? id = some item → item.status = .sold ∧ status ≠ .sold := by
  simp [ItemAllows]

/-- Where an item may be given a status, it is, and nothing else is changed. -/
theorem updateItemStatus_of_allowed {stored : Item}
    (hstored : market.items.find? id = some stored)
    (hallowed : stored.status.allows status = true) :
    let changed := { stored with status := status }
    market.updateItemStatus id status =
      (some changed, { market with items := market.items.modify id fun _ => changed }) := by
  simp [updateItemStatus, hstored, hallowed]

/-- Nothing is written where there is no item that may be given the status. -/
theorem updateItemStatus_of_not_allowed (hnot : ¬ market.ItemAllows id status) :
    market.updateItemStatus id status = (none, market) := by
  unfold updateItemStatus
  split
  next => rfl
  next item hitem =>
    split
    next hallowed => exact absurd (itemAllows_of_allowed hitem hallowed) hnot
    next => rfl

end Market

/-! ## The acts -/

namespace Act

/-- The act of looking for an item. -/
def lookingFor (id : Int) (before : Service) : Act :=
  ⟨.store (.findItem id), .answered, before⟩

/-- The act of writing the status of an item. -/
def writingItem (id : Int) (status : ItemStatus) (before : Service) : Act :=
  ⟨.store (.updateItemStatus id status), .answered, before⟩

/-- The act of taking an item out of the cache. -/
def forgetting (id : Int) (before : Service) : Act :=
  ⟨.cache (.delete (Cache.itemKey id)), .answered, before⟩

variable {id : Int} {status : ItemStatus} {before : Service} {stored : Item}

theorem after_lookingFor : (lookingFor id before).after = before := rfl

theorem after_writingItem (hstored : before.market.items.find? id = some stored)
    (hallowed : stored.status.allows status = true) :
    (writingItem id status before).after = { before with market := { before.market with
      items := before.market.items.modify id fun _ => { stored with status := status } } } := by
  have hanswer := Market.updateItemStatus_of_allowed hstored hallowed
  simp only [writingItem, after, Service.receive, Service.answer, Market.answer, hanswer]

/-- Giving an item the status that it has changes nothing. -/
theorem after_writingItem_of_same (hstored : before.market.items.find? id = some stored) :
    (writingItem id stored.status before).after = before := by
  have hsame : (before.market.items.modify id fun _ => stored) = before.market.items := by
    refine (Table.modify_congr fun value hvalue => ?_).trans (Table.modify_id _ id)
    exact Option.some.inj (hstored.symm.trans hvalue)
  rw [after_writingItem hstored (ItemStatus.allows_iff.mpr fun hsold => hsold), hsame]

theorem after_writingItem_of_not_allowed (hnot : ¬ before.market.ItemAllows id status) :
    (writingItem id status before).after = before := by
  have hanswer := Market.updateItemStatus_of_not_allowed hnot
  simp only [writingItem, after, Service.receive, Service.answer, Market.answer, hanswer]

theorem after_forgetting :
    (forgetting id before).after =
      { before with cache := before.cache.erase (Cache.itemKey id) } := rfl

theorem uncached_after_forgetting : (forgetting id before).after.cachedItem? id = none := by
  rw [after_forgetting, Service.cachedItem?, MemoryCache.find?_erase, if_pos rfl]

end Act

namespace Command

/-- What is left to do once a write has found no item that it may write to. -/
def explainItem (id : Int) : ServiceRoutine (Except Failure Item) :=
  .ask (.store (.findItem id)) fun
    | .error failure => .done (.error failure)
    | .ok none => .done (.error (.notFound (.item id)))
    | .ok (some _) => .done (.error (.conflict (.itemSold id)))

/-- What is left to do once the item was written. -/
def forgetItem (id : Int) (item : Item) : ServiceRoutine (Except Failure Item) :=
  .ask (.cache (.delete (Cache.itemKey id))) fun _ => .done (.ok item)

/-- What is left to do once an item was found that may be given the status. -/
def writeItem (id : Int) (status : ItemStatus) : ServiceRoutine (Except Failure Item) :=
  .ask (.store (.updateItemStatus id status)) fun
    | .error failure => .done (.error failure)
    | .ok none => explainItem id
    | .ok (some item) => forgetItem id item

/-- The whole of a change, call by call. -/
theorem updateItemStatus_eq (id : Int) (status : ItemStatus) :
    (updateItemStatus id status.name).run = .ask (.store (.findItem id)) fun
      | .error failure => .done (.error failure)
      | .ok none => .done (.error (.notFound (.item id)))
      | .ok (some current) =>
        if current.status.allows status then writeItem id status
        else .done (.error (.conflict (.itemSold id))) := by
  unfold updateItemStatus
  rw [ItemStatus.parse_name]
  refine congrArg (Routine.ask _) (funext fun reply => ?_)
  rcases reply with failure | _ | current
  · rfl
  · rfl
  · change (if !current.status.allows status then _ else _ : Action Item).run = _
    cases hallowed : current.status.allows status with
    | false =>
        simp only [hallowed]
        rfl
    | true =>
        simp only [hallowed, if_true]
        refine congrArg (Routine.ask _) (funext fun reply => ?_)
        rcases reply with failure | _ | item
        · rfl
        · refine congrArg (Routine.ask _) (funext fun reply => ?_)
          rcases reply with failure | _ | latest <;> rfl
        · rfl

/-- A text that is not the name of a status is turned down before anything is asked. -/
theorem updateItemStatus_of_unnamed {text : String}
    (hunnamed : ∀ status : ItemStatus, status.name ≠ text) (id : Int) :
    (updateItemStatus id text).run = .done (.error (.validation (.unknownItemStatus text))) := by
  unfold updateItemStatus
  rw [ItemStatus.parse_of_unnamed hunnamed]
  rfl

end Command

/-! ## How far a change has come -/

/-- How far a change of a status has come: its acts so far, and what it has come to once it has
ended. -/
inductive ItemChange (id : Int) (status : ItemStatus) :
    List Act → Option (Except Failure Item) → Prop where
  | begun : ItemChange id status [] none
  | missing {look : Service} (hnone : look.market.items.find? id = none) :
      ItemChange id status [.lookingFor id look] (some (.error (.notFound (.item id))))
  | refused {look : Service} {current : Item}
      (hcurrent : look.market.items.find? id = some current)
      (hrefused : current.status.allows status = false) :
      ItemChange id status [.lookingFor id look] (some (.error (.conflict (.itemSold id))))
  | ready {look : Service} (hlook : look.market.ItemAllows id status) :
      ItemChange id status [.lookingFor id look] none
  | written {look write : Service} {stored : Item} (hlook : look.market.ItemAllows id status)
      (hstored : write.market.items.find? id = some stored)
      (hallowed : stored.status.allows status = true) :
      ItemChange id status [.lookingFor id look, .writingItem id status write] none
  | published {look write forget : Service} {stored : Item}
      (hlook : look.market.ItemAllows id status)
      (hstored : write.market.items.find? id = some stored)
      (hallowed : stored.status.allows status = true) :
      ItemChange id status
        [.lookingFor id look, .writingItem id status write, .forgetting id forget]
        (some (.ok { stored with status := status }))
  | overtaken {look write : Service} (hlook : look.market.ItemAllows id status)
      (hwrite : ¬ write.market.ItemAllows id status) :
      ItemChange id status [.lookingFor id look, .writingItem id status write] none
  | vanished {look write again : Service} (hlook : look.market.ItemAllows id status)
      (hwrite : ¬ write.market.ItemAllows id status)
      (hnone : again.market.items.find? id = none) :
      ItemChange id status
        [.lookingFor id look, .writingItem id status write, .lookingFor id again]
        (some (.error (.notFound (.item id))))
  | lost {look write again : Service} {latest : Item} (hlook : look.market.ItemAllows id status)
      (hwrite : ¬ write.market.ItemAllows id status)
      (hlatest : again.market.items.find? id = some latest) :
      ItemChange id status
        [.lookingFor id look, .writingItem id status write, .lookingFor id again]
        (some (.error (.conflict (.itemSold id))))

namespace ItemChange

variable {id : Int} {status : ItemStatus} {look write : Service} {acts : List Act}
  {rest : ServiceRoutine (Except Failure Item)}

theorem of_explain (hlook : look.market.ItemAllows id status)
    (hwrite : ¬ write.market.ItemAllows id status)
    (hleaves : (Command.explainItem id).Leaves acts rest)
    (hanswered : ∀ act ∈ acts, act.reception = .answered) :
    ItemChange id status (.lookingFor id look :: .writingItem id status write :: acts)
      (⟨acts, rest⟩ : Course _).result? := by
  rcases hleaves.of_store hanswered with ⟨rfl, rfl⟩ | ⟨again, later, rfl, hrest, -⟩
  · exact .overtaken hlook hwrite
  · cases hlatest : again.market.items.find? id with
    | none =>
        simp only [Market.answer, hlatest] at hrest
        obtain ⟨rfl, rfl⟩ := hrest.of_done
        exact .vanished hlook hwrite hlatest
    | some latest =>
        simp only [Market.answer, hlatest] at hrest
        obtain ⟨rfl, rfl⟩ := hrest.of_done
        exact .lost hlook hwrite hlatest

theorem of_forget {stored : Item} (hlook : look.market.ItemAllows id status)
    (hstored : write.market.items.find? id = some stored)
    (hallowed : stored.status.allows status = true)
    (hleaves : (Command.forgetItem id { stored with status := status }).Leaves acts rest)
    (hanswered : ∀ act ∈ acts, act.reception = .answered) :
    ItemChange id status (.lookingFor id look :: .writingItem id status write :: acts)
      (⟨acts, rest⟩ : Course _).result? := by
  cases hleaves with
  | all => exact .written hlook hstored hallowed
  | ask reception forget hrest =>
      obtain rfl : reception = .answered := hanswered _ List.mem_cons_self
      obtain ⟨rfl, rfl⟩ := hrest.of_done
      exact .published hlook hstored hallowed

theorem of_write (hlook : look.market.ItemAllows id status)
    (hleaves : (Command.writeItem id status).Leaves acts rest)
    (hanswered : ∀ act ∈ acts, act.reception = .answered) :
    ItemChange id status (.lookingFor id look :: acts) (⟨acts, rest⟩ : Course _).result? := by
  rcases hleaves.of_store hanswered with ⟨rfl, rfl⟩ | ⟨write, later, rfl, hrest, hlater⟩
  · exact .ready hlook
  · by_cases hwrite : write.market.ItemAllows id status
    · obtain ⟨stored, hstored, hallowed⟩ := hwrite
      have hallowed := ItemStatus.allows_iff.mpr hallowed
      have hanswer := Market.updateItemStatus_of_allowed hstored hallowed
      simp only [Market.answer, hanswer] at hrest
      exact of_forget hlook hstored hallowed hrest hlater
    · have hanswer := Market.updateItemStatus_of_not_allowed hwrite
      simp only [Market.answer, hanswer] at hrest
      exact of_explain hlook hwrite hrest hlater

/-- The acts of a change tell how far it has come. -/
theorem of_leaves (hleaves : Leaves (Command.updateItemStatus id status.name).run acts rest)
    (hanswered : ∀ act ∈ acts, act.reception = .answered) :
    ItemChange id status acts (⟨acts, rest⟩ : Course _).result? := by
  rw [Command.updateItemStatus_eq] at hleaves
  rcases hleaves.of_store hanswered with ⟨rfl, rfl⟩ | ⟨look, later, rfl, hrest, hlater⟩
  · exact .begun
  · cases hcurrent : look.market.items.find? id with
    | none =>
        simp only [Market.answer, hcurrent] at hrest
        obtain ⟨rfl, rfl⟩ := hrest.of_done
        exact .missing hcurrent
    | some current =>
        simp only [Market.answer, hcurrent] at hrest
        split at hrest
        next hallowed =>
          exact of_write (Market.itemAllows_of_allowed hcurrent hallowed) hrest hlater
        next hrefused =>
          obtain ⟨rfl, rfl⟩ := hrest.of_done
          exact .refused hcurrent ((Bool.not_eq_true _).mp hrefused)

/-! What the stages have in common. -/

variable {outcome? : Option (Except Failure Item)} {item : Item} {failure : Failure}

/-- A change makes three calls at most, and the last of them depends on the write. -/
theorem calls (hchange : ItemChange id status acts outcome?) :
    acts.map Act.call <+: [.store (.findItem id), .store (.updateItemStatus id status),
        .cache (.delete (Cache.itemKey id))] ∨
      acts.map Act.call <+: [.store (.findItem id), .store (.updateItemStatus id status),
        .store (.findItem id)] := by
  cases hchange with
  | begun => exact .inl List.nil_prefix
  | missing | refused | ready => exact .inl ⟨_, rfl⟩
  | written => exact .inl ⟨[_], rfl⟩
  | published => exact .inl ⟨[], rfl⟩
  | overtaken => exact .inr ⟨[_], rfl⟩
  | vanished | lost => exact .inr ⟨[], rfl⟩

theorem ended_of_three (hchange : ItemChange id status acts outcome?) (hthree : 3 ≤ acts.length) :
    ∃ outcome, outcome? = some outcome := by
  cases hchange with
  | missing | refused | published | vanished | lost => exact ⟨_, rfl⟩
  | begun | ready | written | overtaken => simp at hthree

/-- A change ends well just when the item may be given the status at the first look and at the
write. -/
theorem succeeds_iff {outcome : Except Failure Item}
    (hchange : ItemChange id status acts (some outcome)) :
    (∃ item, outcome = .ok item) ↔
      ∃ look write, [.lookingFor id look, .writingItem id status write] <+: acts ∧
        look.market.ItemAllows id status ∧ write.market.ItemAllows id status := by
  constructor
  · rintro ⟨item, rfl⟩
    cases hchange with
    | published hlook hstored hallowed =>
        exact ⟨_, _, ⟨[_], rfl⟩, hlook, Market.itemAllows_of_allowed hstored hallowed⟩
  · rintro ⟨look, write, ⟨later, rfl⟩, -, hwrite⟩
    cases hchange with
    | published => exact ⟨_, rfl⟩
    | vanished _ hnot | lost _ hnot => exact absurd hwrite hnot

theorem published_of_ok (hchange : ItemChange id status acts (some (.ok item))) :
    ∃ look write forget stored,
      acts = [.lookingFor id look, .writingItem id status write, .forgetting id forget] ∧
      write.market.items.find? id = some stored ∧ stored.status.allows status = true ∧
      item = { stored with status := status } := by
  cases hchange with
  | published hlook hstored hallowed => exact ⟨_, _, _, _, rfl, hstored, hallowed, rfl⟩

/-- A change that fails leaves everything as it is, what is cached included. -/
theorem idle_of_error (hchange : ItemChange id status acts (some (.error failure))) :
    ∀ act ∈ acts, act.after = act.before := by
  cases hchange with
  | missing | refused => exact List.forall_mem_singleton.mpr Act.after_lookingFor
  | vanished hlook hwrite | lost hlook hwrite =>
      refine List.forall_mem_cons.mpr ⟨Act.after_lookingFor, List.forall_mem_cons.mpr ⟨?_, ?_⟩⟩
      · exact Act.after_writingItem_of_not_allowed hwrite
      · exact List.forall_mem_singleton.mpr Act.after_lookingFor

end ItemChange

end FishMarket
