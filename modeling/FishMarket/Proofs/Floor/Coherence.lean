import FishMarket.Proofs.Floor.Races

/-! # Coherence of cached items

What is cached of an item can differ from what is stored in two ways only. Either somebody has
written the item and not yet taken it out of the cache, or somebody has left in the cache what he
had found before the item was written.
-/

namespace FishMarket

open Calendar

namespace Floor

variable {floor start : Floor Errand} {move : Move Errand} {moves : List (Move Errand)}
  {index bystanders : Nat} {id : Int} {text : String}

/-- Whether what is cached of an item, if anything, is the item as it is stored. -/
def Coherent (floor : Floor Errand) (id : Int) : Prop :=
  ∀ text, floor.service.cachedItem? id = some text →
    ∃ item, floor.market.items.find? id = some item ∧
      Record.readWhole Item text.toList = .ok item

/-- Whether the task with a number is about to leave an item in the cache that has been changed
since the task found it. -/
def Straddles (start : Floor Errand) (moves : List (Move Errand)) (index : Nat) (id : Int) : Prop :=
  (start.play moves).IsCaching index id ∧
    ∃ found change later, moves = found ++ change :: later ∧
      (start.play found).IsCaching index id ∧
      (start.play (found ++ [change])).market.items.find? id ≠
        (start.play found).market.items.find? id

/-- Whether nobody leaves an item in the cache that has been changed since he found it. -/
def NobodyStraddles (start : Floor Errand) (moves : List (Move Errand)) (id : Int) : Prop :=
  ∀ before index, before ++ [.serve index .answered] <+: moves → ¬start.Straddles before index id

theorem NobodyStraddles.of_append {later : List (Move Errand)}
    (hnobody : start.NobodyStraddles (moves ++ later) id) : start.NobodyStraddles moves id :=
  fun before index hbegins => hnobody before index (hbegins.trans (List.prefix_append _ _))

/-! ## Before a race -/

/-- Whether everybody who has come is done, and an item, if it is cached, is cached as it is stored.
The fields of the item are within their ranges. -/
structure AtRest (start : Floor Errand) (id : Int) : Prop where
  reached : ∃ moves, let floor : Floor Errand := (initial : Floor Errand).play moves
    floor.market = start.market ∧ floor.tasks = start.tasks
  done : ∀ task ∈ start.tasks, task.pending? = none
  coherent : start.Coherent id
  inRange : ∀ item, start.market.items.find? id = some item → Recorded.InRange item

namespace AtRest

theorem due?_eq_none (hrest : start.AtRest id) (index : Nat) : start.due? index = none := by
  rw [due?]
  cases htask : start.tasks[index]? with
  | none => rfl
  | some task => exact hrest.done task (List.mem_of_getElem? htask)

theorem racing (hrest : start.AtRest id) : start.Racing start.tasks.length := by
  obtain ⟨moves, hmarket, htasks⟩ := hrest.reached
  have hnobody : (initial : Floor Errand).Sighted := fun task hmem => absurd hmem List.not_mem_nil
  have horderly : Orderly (initial.play moves : Floor Errand).service _ :=
    Orderly.initial.play moves
  have hsame : Market.Change (initial.play moves : Floor Errand).market none start.market :=
    hmarket ▸ .nothing
  refine ⟨?_, ?_, fun index hindex => ?_, fun index task hindex htask => ?_⟩
  · exact htasks ▸ horderly.change hsame
  · exact fun task hmem => hnobody.play moves task (htasks ▸ hmem)
  · exact ⟨_, List.getElem?_eq_getElem hindex, hrest.done _ (List.getElem_mem hindex)⟩
  · exact absurd (List.getElem?_eq_some_iff.mp htask).1 (Nat.not_lt.mpr hindex)

end AtRest

/-! ## What is stored during a race -/

theorem Racing.inRange_play (hracing : floor.Racing bystanders)
    (hmoves : ∀ move ∈ moves, move.isOfRace = true)
    (hrange : ∀ item, floor.market.items.find? id = some item → Recorded.InRange item) :
    ∀ item, (floor.play moves).market.items.find? id = some item → Recorded.InRange item := by
  induction moves generalizing floor with
  | nil => exact hrange
  | cons move rest ih =>
      obtain ⟨hmove, hrest⟩ := List.forall_mem_cons.mp hmoves
      refine ih (hracing.take hmove) hrest fun row hrow => ?_
      rcases hracing.items_take hmove with hsame | ⟨-, other, item, status, -, -, hfound, hitems⟩
      · exact hrange row (hsame ▸ hrow)
      · rw [hitems] at hrow
        split at hrow
        next hid =>
          obtain rfl := Option.some.inj hrow
          obtain ⟨hfits, hlegible⟩ := hrange item (hid ▸ hfound)
          exact ⟨Item.fits_status hfits status, Item.legible_status hlegible status⟩
        next => exact hrange row hrow

/-- An item that somebody has written in a race is on record for the rest of it. -/
theorem AtRest.found_of_written (hrest : start.AtRest id)
    (hmoves : ∀ move ∈ moves, move.isOfRace = true) (hindex : start.tasks.length ≤ index)
    (hwritten : (start.play moves).HasWritten index id) :
    ∃ item, (start.play moves).market.items.find? id = some item := by
  induction moves using List.reverseRecOn with
  | nil =>
      obtain ⟨phase, hcome, -⟩ := hwritten
      exact absurd hcome.lt_length (Nat.not_lt.mpr hindex)
  | append_singleton moves move ih =>
      obtain ⟨hearlier, hmove⟩ := List.forall_mem_append.mp hmoves
      rw [List.forall_mem_singleton] at hmove
      have hracing := hrest.racing.play hearlier
      rw [play_singleton] at hwritten ⊢
      refine hracing.found_take hmove ?_
      rcases hracing.found_of_written hmove hwritten with hbefore | hfound
      · exact ih hearlier hbefore
      · exact hfound

/-! ## What is cached during a race -/

/-- What somebody is about to leave in the cache is the item as it is stored, or it has been changed
since it was found. -/
theorem Sighted.cached_or_straddles (hsighted : start.Sighted)
    (hidle : ∀ index, start.due? index = none) {ttl : Nat}
    (hdue : (start.play moves).due? index = some (.cache (.set (Cache.itemKey id) text ttl))) :
    (∃ item, (start.play moves).market.items.find? id = some item ∧
      text = String.ofList (Recorded.json item)) ∨ start.Straddles moves index id := by
  induction moves using List.reverseRecOn generalizing ttl with
  | nil => cases (hidle index).symm.trans hdue
  | append_singleton moves move ih =>
      have hcaching : (start.play (moves ++ [move])).IsCaching index id := ⟨text, ttl, hdue⟩
      rw [play_singleton] at hdue
      rcases (hsighted.play moves).caches_take hdue with hbefore | ⟨item, hfound, htext, hmarket⟩
      · rcases ih hbefore with ⟨item, hfound, htext⟩ | ⟨-, found, change, later, rfl, hchanged⟩
        · by_cases hsame : (start.play (moves ++ [move])).market.items.find? id =
              (start.play moves).market.items.find? id
          · exact .inl ⟨item, hsame.trans hfound, htext⟩
          · exact .inr ⟨hcaching, moves, move, [], rfl, ⟨text, ttl, hbefore⟩, hsame⟩
        · refine .inr ⟨hcaching, found, change, later ++ [move], ?_, hchanged⟩
          rw [List.append_assoc, List.cons_append]
      · rw [play_singleton, hmarket]
        exact .inl ⟨item, hfound, htext⟩

namespace AtRest

/-- Whoever leaves an item in the cache leaves it there as it is stored. -/
theorem current_of_caching (hrest : start.AtRest id)
    (hmoves : ∀ move ∈ moves, move.isOfRace = true)
    (hnobody : start.NobodyStraddles (moves ++ [.serve index .answered]) id) {ttl : Nat}
    (hdue : (start.play moves).due? index = some (.cache (.set (Cache.itemKey id) text ttl))) :
    ∃ item, (start.play (moves ++ [.serve index .answered])).market.items.find? id = some item ∧
      Record.readWhole Item text.toList = .ok item := by
  rcases hrest.racing.sighted.cached_or_straddles hrest.due?_eq_none hdue with
    ⟨item, hfound, rfl⟩ | hstraddles
  · obtain ⟨errand, acts, next, htask⟩ := due?_eq_some_iff.mp hdue
    have hservice := (take_serve htask .answered).1
    refine ⟨item, ?_, ?_⟩
    · rw [play_singleton]
      exact (congrArg (fun service => service.market.items.find? id) hservice).trans hfound
    · rw [String.toList_ofList]
      exact Recorded.readWhole_json_of_inRange
        (hrest.racing.inRange_play hmoves hrest.inRange item hfound)
  · exact absurd hstraddles (hnobody moves index List.prefix_rfl)

/-- What is cached of an item is the item as it is stored, or somebody has written the item and not
yet forgotten it. -/
theorem current_or_written (hrest : start.AtRest id)
    (hmoves : ∀ move ∈ moves, move.isOfRace = true) (hnobody : start.NobodyStraddles moves id) :
    (start.play moves).Coherent id ∨ ∃ index, start.tasks.length ≤ index ∧
      (start.play moves).StandsBetween index id := by
  induction moves using List.reverseRecOn with
  | nil => exact .inl hrest.coherent
  | append_singleton moves move ih =>
      obtain ⟨hearlier, hmove⟩ := List.forall_mem_append.mp hmoves
      rw [List.forall_mem_singleton] at hmove
      rw [play_singleton]
      rcases ih hearlier hnobody.of_append with hcoherent | ⟨index, hindex, hcome⟩
      · rcases (hrest.racing.play hearlier).item_take hmove id with hsame | hwritten
        · refine .inl fun text hcached => ?_
          rcases cachedItem?_take hcached with ⟨hbefore, -⟩ | ⟨index, ttl, rfl, hdue⟩
          · rw [hsame]
            exact hcoherent text hbefore
          · rw [← play_singleton]
            exact hrest.current_of_caching hearlier hnobody hdue
        · exact .inr hwritten
      · rcases hcome.take move with hstays | ⟨call, reception, rfl, hdue, hafter⟩
        · exact .inr ⟨index, hindex, hstays⟩
        · obtain rfl := Move.reception_of_isAnswered (Move.isAnswered_of_isOfRace hmove)
          cases hforgets : call.forgetsItem id with
          | true =>
              rw [ServiceCall.eq_of_forgetsItem hforgets] at hdue
              refine .inl fun text hcached => ?_
              cases (uncached_of_forgotten hdue).symm.trans hcached
          | false =>
              rw [Publication.after, Option.any_some, hforgets] at hafter
              exact .inr ⟨index, hindex, hafter⟩

/-- What is cached of an item that somebody has written and forgotten was stored when he had
written it. -/
theorem written_before_cached (hrest : start.AtRest id)
    (hmoves : ∀ move ∈ moves, move.isOfRace = true) (hnobody : start.NobodyStraddles moves id)
    (hindex : start.tasks.length ≤ index)
    (hcome : (start.play moves).HasCome index id ⟨true, true⟩)
    (hcached : (start.play moves).service.cachedItem? id = some text) :
    ∃ item moment, Record.readWhole Item text.toList = .ok item ∧ moment <+: moves ∧
      (start.play moment).HasWritten index id ∧
      (start.play moment).market.items.find? id = some item := by
  induction moves using List.reverseRecOn with
  | nil => exact absurd hcome.lt_length (Nat.not_lt.mpr hindex)
  | append_singleton moves move ih =>
      obtain ⟨hearlier, hmove⟩ := List.forall_mem_append.mp hmoves
      rw [List.forall_mem_singleton] at hmove
      rw [play_singleton] at hcached
      rcases cachedItem?_take hcached with ⟨hbefore, hkept⟩ | ⟨other, ttl, rfl, hdue⟩
      · rw [play_singleton] at hcome
        rcases (hrest.racing.play hearlier).forgets_of_published hmove hcome with
          hcome | ⟨rfl, hforgets⟩
        · obtain ⟨item, moment, hread, hbegins, hthen⟩ :=
            ih hearlier hnobody.of_append hcome hbefore
          exact ⟨item, moment, hread, hbegins.trans (List.prefix_append _ _), hthen⟩
        · exact absurd hforgets (hkept index rfl)
      · obtain ⟨item, hfound, hread⟩ := hrest.current_of_caching hearlier hnobody hdue
        exact ⟨item, _, hread, List.prefix_rfl, ⟨_, hcome, rfl⟩, hfound⟩

/-- Whoever reports to have changed an item has written and forgotten it. -/
theorem published (hrest : start.AtRest id) (hmoves : ∀ move ∈ moves, move.isOfRace = true)
    (hindex : start.tasks.length ≤ index)
    (hchanged : ((start.play moves).tasks[index]?.bind Task.changed?) = some id)
    (later : List (Move Errand)) :
    ((start.play moves).play later).HasCome index id ⟨true, true⟩ := by
  obtain ⟨task, htask, hchanged⟩ := Option.bind_eq_some_iff.mp hchanged
  obtain ⟨hchanges, hphase⟩ :=
    ((hrest.racing.play hmoves).races index task hindex htask).of_changed hchanged
  obtain ⟨errand, ⟨acts, rest⟩, dropped⟩ := task
  cases rest with
  | ask call next => cases hchanged
  | done outcome =>
      obtain ⟨dropped, hended⟩ := ended_play htask later
      exact ⟨_, hended, hchanges, hphase⟩

end AtRest

/-- An item is put up for sale. -/
def putUp : List (Move Errand) :=
  let now : Instant := ⟨⟨19792⟩, default⟩
  [.enter (.createVenue ⟨"Pier", "1", ""⟩ now), .serve 0 .answered,
    .enter (.createAuction ⟨1, ⟨19800⟩, none, none, none⟩ now),
    .serve 1 .answered, .serve 1 .answered,
    .enter (.direct (.createFisherman "Kim" now) (StoreCall.createFisherman_isPlain "Kim" now)),
    .serve 2 .answered,
    .enter (.createItem ⟨2, 3, "cod", 1, "kg", none, 0⟩ now),
    .serve 3 .answered, .serve 3 .answered, .serve 3 .answered]

/-- The item is found, then sold. -/
def sale : List (Move Errand) :=
  [.enter (.getItem 5000 4), .serve 4 .answered, .serve 4 .answered, .serve 4 .answered,
    .enter (.updateItemStatus 4 "sold"),
    .serve 5 .answered, .serve 5 .answered, .serve 5 .answered]

/-- The item is looked for again. -/
def latestLook : List (Move Errand) :=
  [.enter (.getItem 5000 4), .serve 6 .answered, .serve 6 .answered, .serve 6 .answered]

theorem atRest_putUp : ((initial : Floor Errand).play putUp).AtRest 4 where
  reached := ⟨putUp, rfl, rfl⟩
  done := by decide +kernel
  coherent text hcached := by
    have hnone : ((initial : Floor Errand).play putUp).service.cachedItem? 4 = none := by
      decide +kernel
    cases hnone.symm.trans hcached
  inRange item hitem := by
    have hrow : ((initial : Floor Errand).play putUp).market.items.find? 4 =
        some ⟨4, 2, 3, "cod", 1, "kg", .pending, 0, ⟨⟨19792⟩, default⟩⟩ := by decide +kernel
    obtain rfl := Option.some.inj (hrow.symm.trans hitem)
    exact ⟨(Item.fits_iff _).mpr (by decide), (Item.legible_iff _).mpr (by decide)⟩

/-- The item is changed only when it is sold, and nobody has just found it then. -/
theorem nobodyStraddles_sale :
    ((initial : Floor Errand).play putUp).NobodyStraddles (sale ++ latestLook) 4 := by
  rintro before index hbegins ⟨-, found, change, later, rfl, ⟨text, ttl, hdue⟩, hchanged⟩
  have hafter : found ++ [change] <+: sale ++ latestLook := by
    refine List.IsPrefix.trans ⟨later ++ [.serve index .answered], ?_⟩ hbegins
    simp
  have hfound := List.prefix_iff_eq_take.mp ((List.prefix_append found [change]).trans hafter)
  have hlength := hafter.length_le
  have hsame : ∀ count < 12, count ≠ 6 →
      (((initial : Floor Errand).play putUp).play
          ((sale ++ latestLook).take (count + 1))).market.items.find? 4 =
        (((initial : Floor Errand).play putUp).play
          ((sale ++ latestLook).take count)).market.items.find? 4 := by
    decide +kernel
  have hpending : (((initial : Floor Errand).play putUp).play
      ((sale ++ latestLook).take 6)).tasks.filterMap Task.pending? =
        [.store (.updateItemStatus 4 .sold)] := by
    decide +kernel
  rw [List.length_append, List.length_singleton] at hlength
  rw [List.prefix_iff_eq_take.mp hafter, List.length_append, List.length_singleton] at hchanged
  by_cases hsold : found.length = 6
  · rw [hfound, hsold] at hdue
    cases List.mem_singleton.mp (hpending ▸ mem_pending_of_due hdue)
  · apply hchanged
    rw [hsame found.length hlength hsold, ← hfound]

-- Whoever has found the item before it is sold and caches it afterwards misleads those after him.
example :
    let floor := ((initial : Floor Errand).play putUp).play
      [.enter (.getItem 5000 4), .serve 4 .answered, .serve 4 .answered,
        .enter (.updateItemStatus 4 "sold"),
        .serve 5 .answered, .serve 5 .answered, .serve 5 .answered, .serve 4 .answered,
        .enter (.getItem 5000 4), .serve 6 .answered]
    (floor.market.items.find? 4).map Item.status = some .sold ∧
      (floor.tasks[6]?.bind Task.found?).map Item.status = some .pending := by
  decide +kernel

end Floor

end FishMarket
