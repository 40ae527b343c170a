import FishMarket.Proofs.Floor.Between
import FishMarket.Proofs.Floor.Sold
import FishMarket.Proofs.Service.ItemChange

/-! # Changes of an item's status among others

Bids are settled and auctions are deleted while the status of an item is changed. A write finds
nothing that it may write to if the item is gone, or if it is sold. Neither is ever undone on the
floor, so a second look finds what the write has come upon.
-/

namespace FishMarket

open Calendar
open ServiceRoutine (Leaves)

namespace Market

variable {market : Market} {id : Int} {status : ItemStatus}

/-- Whether an id was given out, and there is no item under it that may be given a status. -/
def ItemShut (id : Int) (status : ItemStatus) (market : Market) : Prop :=
  id ≤ market.lastId ∧ ¬ market.ItemAllows id status

/-- An item is shut when it is gone, or when it is sold and would not be so any more. -/
theorem itemShut_iff : market.ItemShut id status ↔
    market.ItemGone id ∨ status ≠ .sold ∧ market.Sealed id := by
  unfold ItemShut
  rw [not_itemAllows_iff]
  constructor
  · rintro ⟨hgiven, hshut⟩
    by_cases hsold : status = .sold
    · refine .inl ⟨hgiven, Option.eq_none_iff_forall_ne_some.mpr fun item hitem => ?_⟩
      exact (hshut item hitem).2 hsold
    · exact .inr ⟨hsold, hgiven, fun item hitem => (hshut item hitem).1⟩
  · rintro (⟨hgiven, hnone⟩ | ⟨hstatus, hgiven, hsold⟩)
    · exact ⟨hgiven, fun item hitem => absurd (hnone.symm.trans hitem) nofun⟩
    · exact ⟨hgiven, fun item hitem => ⟨hsold item hitem, hstatus⟩⟩

/-- What is shut stays shut. -/
theorem ItemShut.lasting (id : Int) (status : ItemStatus) : Lasting (ItemShut id status) := by
  intro market after hshut hconsistent htraded
  rcases itemShut_iff.mp hshut with hgone | ⟨hstatus, hsealed⟩
  · exact itemShut_iff.mpr (.inl ((ItemGone.stable id).traded hgone hconsistent htraded))
  · exact itemShut_iff.mpr (.inr ⟨hstatus, hsealed.traded htraded⟩)

end Market

namespace ItemChange

variable {id : Int} {status : ItemStatus} {course : Course (Except Failure Item)}
  {market : Market} {look write again : Service} {failure : Failure}

/-- What a write has found to be shut is shut at the second look. -/
theorem shut_at_second_look (htimely : course.Timely market)
    (hacts : course.acts =
      [.lookingFor id look, .writingItem id status write, .lookingFor id again])
    (hlook : look.market.ItemAllows id status) (hwrite : ¬ write.market.ItemAllows id status) :
    again.market.ItemShut id status := by
  obtain ⟨hfound, -, horder⟩ := htimely
  rw [hacts] at hfound horder
  obtain ⟨hfirst, hrest⟩ := List.pairwise_cons.mp horder
  obtain ⟨hsecond, -⟩ := List.pairwise_cons.mp hrest
  have hconsistent : look.market.Consistent := hfound _ List.mem_cons_self
  have hbefore : look.market.Antecedes write.market := hfirst _ List.mem_cons_self
  have hafter : write.market.Antecedes again.market := by
    rw [Act.after_writingItem_of_not_allowed hwrite] at hsecond
    exact hsecond _ List.mem_cons_self
  obtain ⟨current, hcurrent, -⟩ := hlook
  have hgiven := hbefore _ (Market.le_lastId_stable id).lasting
    (hconsistent.item_le_lastId hcurrent)
  exact hafter _ (Market.ItemShut.lasting id status) ⟨hgiven, hwrite⟩

/-- A change that fails says what its last look has found. -/
theorem explained_of_error (htimely : course.Timely market)
    (hchange : ItemChange id status course.acts (some (.error failure))) :
    ∃ earlier read, course.acts = earlier ++ [.lookingFor id read] ∧
      (read.market.items.find? id = none ∧ failure = .notFound (.item id) ∨
        ∃ current, read.market.items.find? id = some current ∧ current.status = .sold ∧
          status ≠ .sold ∧ failure = .conflict (.itemSold id)) := by
  generalize hacts : course.acts = acts at hchange
  cases hchange with
  | missing hnone => exact ⟨[], _, rfl, .inl ⟨hnone, rfl⟩⟩
  | refused hcurrent hrefused =>
      have hsold := mt ItemStatus.allows_iff.mpr (Bool.eq_false_iff.mp hrefused)
      rw [Classical.not_imp] at hsold
      exact ⟨[], _, rfl, .inr ⟨_, hcurrent, hsold.1, hsold.2, rfl⟩⟩
  | vanished hlook hwrite hnone => exact ⟨[_, _], _, rfl, .inl ⟨hnone, rfl⟩⟩
  | lost hlook hwrite hlatest =>
      have hshut := (shut_at_second_look htimely hacts hlook hwrite).2
      obtain ⟨hsold, hstatus⟩ := Market.not_itemAllows_iff.mp hshut _ hlatest
      exact ⟨[_, _], _, rfl, .inr ⟨_, hlatest, hsold, hstatus, rfl⟩⟩

end ItemChange

/-- Somebody changes the status of an item, among others who may do anything at the service; nobody
refuses his calls. A text that is not the name of a status is turned down without a call. Otherwise
there are three calls at most: a look, a write, and then a deletion from the cache or a second look.
The change ends well just when the item may be given the status at the look and at the write, that
is, unless it is sold and would not be so any more. Then it returns the item as it stands right
after the write, which changes nothing but the status, and nothing at all if this is the status
already; and what was cached of the item is gone after the last call. If the change fails, no call
of it changes anything, in the store or in the cache, and the failure says what its last look has
found: either no item, or one that is sold and was to be given another status. -/
theorem Floor.updateItemStatus_decided_by_write (moves : List (Move Business)) (id : Int) :
    let tasks := ((Floor.initial : Floor Business).play moves).tasks
    (∀ (text : String) (course : Course (Except Failure Item)) (dropped : Bool),
      (∀ status : ItemStatus, status.name ≠ text) →
      (⟨.errand (.updateItemStatus id text), course, dropped⟩ : Task Business) ∈ tasks →
      course.acts = [] ∧
        course.result? = some (.error (.validation (.unknownItemStatus text)))) ∧
    ∀ (status : ItemStatus) (course : Course (Except Failure Item)) (dropped : Bool),
      (⟨.errand (.updateItemStatus id status.name), course, dropped⟩ : Task Business) ∈ tasks →
      (∀ act ∈ course.acts, act.reception = .answered) →
      (course.acts.map Act.call <+: [.store (.findItem id),
          .store (.updateItemStatus id status), .cache (.delete (Cache.itemKey id))] ∨
        course.acts.map Act.call <+: [.store (.findItem id),
          .store (.updateItemStatus id status), .store (.findItem id)]) ∧
      (3 ≤ course.acts.length → ∃ outcome, course.result? = some outcome) ∧
      (∀ outcome, course.result? = some outcome →
        ((∃ item, outcome = .ok item) ↔
          ∃ look write, [.lookingFor id look, .writingItem id status write] <+: course.acts ∧
            look.market.ItemAllows id status ∧ write.market.ItemAllows id status)) ∧
      (∀ item, course.result? = some (.ok item) →
        ∃ look write forget stored,
          course.acts =
            [.lookingFor id look, .writingItem id status write, .forgetting id forget] ∧
          write.market.items.find? id = some stored ∧
          item = { stored with status := status } ∧
          (Act.lookingFor id look).after = look ∧
          (Act.forgetting id forget).after.market = forget.market ∧
          (Act.forgetting id forget).after.cachedItem? id = none ∧
          let after := (Act.writingItem id status write).after
          after = { write with market := { write.market with
            items := write.market.items.modify id fun _ => item } } ∧
          after.market.items.find? id = some item ∧
          (stored.status = status → after = write)) ∧
      ∀ failure, course.result? = some (.error failure) →
        (∀ act ∈ course.acts, act.after = act.before) ∧
        ∃ earlier read, course.acts = earlier ++ [.lookingFor id read] ∧
          (read.market.items.find? id = none ∧ failure = .notFound (.item id) ∨
            ∃ current, read.market.items.find? id = some current ∧ current.status = .sold ∧
              status ≠ .sold ∧ failure = .conflict (.itemSold id)) := by
  intro tasks
  refine ⟨?_, ?_⟩
  · intro text course dropped hunnamed hmem
    have hleaves : Leaves (Command.updateItemStatus id text).run course.acts course.rest :=
      Floor.leaves moves _ hmem
    rw [Command.updateItemStatus_of_unnamed hunnamed] at hleaves
    obtain ⟨hacts, hrest⟩ := hleaves.of_done
    exact ⟨hacts, by rw [Course.result?, hrest]⟩
  intro status course dropped hmem hanswered
  have htimely := Floor.timely_play moves _ hmem
  have hchange : ItemChange id status course.acts course.result? :=
    .of_leaves (Floor.leaves moves _ hmem) hanswered
  refine ⟨hchange.calls, hchange.ended_of_three, fun outcome hresult => ?_,
    fun item hresult => ?_, fun failure hresult => ?_⟩
  · rw [hresult] at hchange
    exact hchange.succeeds_iff
  · rw [hresult] at hchange
    obtain ⟨look, write, forget, stored, hacts, hstored, hallowed, rfl⟩ := hchange.published_of_ok
    have hafter := Act.after_writingItem hstored hallowed
    refine ⟨look, write, forget, stored, hacts, hstored, rfl, Act.after_lookingFor, rfl,
      Act.uncached_after_forgetting, hafter, ?_, ?_⟩
    · rw [hafter, Table.find?_modify, if_pos rfl, hstored]
      rfl
    · rintro rfl
      exact Act.after_writingItem_of_same hstored
  · rw [hresult] at hchange
    exact ⟨hchange.idle_of_error, hchange.explained_of_error htimely⟩

-- A bid on the item is settled between the look and the write.
example (now : Instant) (date : Date) :
    let floor := (Floor.initial : Floor Errand).play [
      .enter (.direct (.createVenue ⟨"", "", ""⟩ now) ⟨nofun, rfl⟩), .serve 0 .answered,
      .enter (.direct (.createAuction ⟨1, date, none, none, none⟩ now) ⟨nofun, rfl⟩),
      .serve 1 .answered,
      .enter (.direct (.createFisherman "" now) ⟨nofun, rfl⟩), .serve 2 .answered,
      .enter (.direct (.createItem ⟨2, 3, "", 1, "", none, 1⟩ now) ⟨nofun, rfl⟩),
      .serve 3 .answered,
      .enter (.direct (.createBuyer "" now) ⟨nofun, rfl⟩), .serve 4 .answered,
      .enter (.updateItemStatus 4 "available"), .serve 5 .answered,
      .enter (.placeBid ⟨4, 5, 100⟩ now), .serve 6 .answered, .serve 6 .answered,
      .serve 6 .answered, .serve 6 .answered,
      .serve 5 .answered, .serve 5 .answered]
    (floor.tasks[5]?.map fun task => task.course.acts.map Act.call) =
      some [.store (.findItem 4), .store (.updateItemStatus 4 .available),
        .store (.findItem 4)] := by
  cbv

end FishMarket
