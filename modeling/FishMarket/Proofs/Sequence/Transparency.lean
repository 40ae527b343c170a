import FishMarket.Proofs.Sequence.Agreement
import FishMarket.Proofs.Sequence.Ranges
import FishMarket.Proofs.Sequence.Tidying
import FishMarket.Proofs.Settings

/-! # The cache is transparent

As long as the cache always answers, it holds nothing but what is stored: whatever is changed is
forgotten before the visitor leaves, and what is absent is never cached. So what is read through the
cache is what the store would have said, at whatever moments texts expire or get lost, unless the
reader is broken off near the end of the clock of the cache.
-/

namespace FishMarket

open Calendar
open ServiceRoutine (Tidy)

variable {α β : Type}

/-! ## Fair weather -/

/-- The same weather over a cache that always answers. -/
def Forecast.mended (forecast : Forecast) : Forecast :=
  fun call => { forecast call with fails := false }

variable (forecast : Forecast)

theorem Exposed.not_holds_deleted (exposed : Exposed) (key text : String) :
    ¬ (exposed.answer forecast.mended (.cache (.delete key))).2.cache.Holds key text :=
  fun hholds => (MemoryCache.holds_erase hholds).1 rfl

/-- In fair weather, what a routine forgets is gone. -/
theorem ServiceRoutine.Forgets.not_holds {routine : ServiceRoutine α} (hforgets : routine.Forgets)
    {exposed : Exposed} {key : String} (hkey : key ∈ routine.forgotten exposed.market)
    (text : String) :
    ¬ (routine.run (Exposed.answer forecast.mended) exposed).2.cache.Holds key text := by
  induction routine generalizing exposed with
  | done value => cases hkey
  | ask call next ih =>
      cases call with
      | store call => exact ih _ (hforgets _) hkey
      | cache call =>
          cases call with
          | get | set => exact hforgets.elim
          | delete other =>
              rcases List.mem_cons.mp hkey with rfl | hkey
              · -- nothing that follows brings the text back
                intro hholds
                have hwithin := (hforgets.2.run forecast.mended
                  (exposed.answer forecast.mended (.cache (.delete key))).2).2.2
                exact exposed.not_holds_deleted forecast key text (hwithin key text hholds)
              · exact ih _ hforgets.2 hkey

/-! ## What is cached is what is stored -/

theorem Market.alone_reads {routine : ServiceRoutine α}
    (hreads : routine.Asks ServiceCall.IsReading) (market : Market) :
    (routine.run Market.alone market).2 = market := by
  induction routine generalizing market with
  | done value => rfl
  | ask call next ih =>
      have hsame : (Market.alone call market).2 = market := by
        cases call with
        | store call => cases call <;> first | exact rfl | cases hreads.1
        | cache call => cases call <;> rfl
      rw [Routine.run, ih _ (hreads.2 _), hsame]

/-- Whether an item is what is stored under an id. -/
def Market.HasItem (market : Market) (id : Int) (item : Item) : Prop :=
  market.items.find? id = some item

namespace Exposed

/-- Whether the cache holds nothing but what is stored, and what is stored can be told from its
written form. -/
structure Truthful (exposed : Exposed) : Prop where
  faithful : exposed.Faithful exposed.market.HasItem
  ranged : exposed.market.Ranged

namespace Truthful

variable {exposed after : Exposed} {ttl : Nat}

theorem initial : Exposed.initial.Truthful where
  faithful := .initial
  ranged := .initial

theorem legible (htruthful : exposed.Truthful) (id : Int) (item : Item)
    (hitem : exposed.market.HasItem id item) : Recorded.Legible item :=
  (htruthful.ranged.items id item hitem).legible

theorem intact (htruthful : exposed.Truthful) (hintact : exposed.Intact ttl after) :
    after.Truthful := by
  obtain ⟨hfaithful, hranged⟩ := htruthful
  have hsame := hintact.market
  constructor
  · rw [hsame]
    exact hfaithful.of_market hsame (hfaithful.items.within hintact.cache)
      (hfaithful.buyers.within hintact.cache) (hfaithful.fishermen.within hintact.cache)
  · rw [hsame]
    exact hranged

end Truthful

theorem agrees_getItem_truthful {exposed : Exposed} (htruthful : exposed.Truthful) (ttl : Nat)
    (id : Int) :
    Agrees forecast exposed.market.HasItem exposed (Query.getItem ttl id).run fun _ => False := by
  have hagrees := agrees_getItem forecast htruthful.faithful (fun _ _ hitem => hitem)
    htruthful.legible ttl id
  refine { hagrees with outcome := .inl ?_ }
  rw [getItem_alone]
  exact Action.run_fetch_stored forecast id (findItem_loads id) htruthful.faithful.items
    (fun _ hitem => hitem) (htruthful.legible id) (Cache.itemTtl ttl) (.item id)

end Exposed

namespace ServiceRoutine

/-- Whether a routine leaves a cache that holds nothing but what is stored, in fair weather. -/
def StaysTruthful (routine : ServiceRoutine α) : Prop :=
  ∀ (forecast : Forecast) (exposed : Exposed), exposed.Truthful →
    (routine.run (Exposed.answer forecast.mended) exposed).2.Truthful

namespace StaysTruthful

variable {routine : ServiceRoutine α}

theorem done (value : α) : StaysTruthful (.done value) :=
  fun _ _ htruthful => htruthful

theorem bind {next : α → ServiceRoutine β} (hfirst : routine.StaysTruthful)
    (hnext : ∀ value, (next value).StaysTruthful) : StaysTruthful (routine.bind next) := by
  intro forecast exposed htruthful
  rw [Routine.run_bind]
  exact hnext _ forecast _ (hfirst forecast exposed htruthful)

/-- A tidy routine that only forgets has forgotten all that it has changed. -/
theorem of_tidy (hforgets : routine.Forgets) (hrange : routine.Asks ServiceCall.InRange)
    (htidy : ∀ market : Market, market.Consistent → routine.Tidy market) :
    routine.StaysTruthful := by
  intro forecast exposed htruthful
  obtain ⟨-, hmarket, hwithin⟩ := hforgets.run forecast.mended exposed
  have hconsistent := htruthful.faithful.consistent
  have hagrees : Exposed.Agrees forecast.mended exposed.market.HasItem exposed routine fun _ =>
      False := .of_forgets htruthful.faithful hforgets _
  refine ⟨{ hagrees.faithful with items := fun id text hholds => ?_ }, ?_⟩
  · obtain ⟨item, hitem, htext⟩ := htruthful.faithful.items id text (hwithin _ text hholds)
    -- a text that is still there was not forgotten, so its item was not changed
    rcases htidy exposed.market hconsistent id item hitem with hkept | hforgotten
    · exact ⟨item, hmarket ▸ hkept, htext⟩
    · exact absurd hholds (hforgets.not_holds forecast hforgotten text)
  · rw [hmarket]
    exact Market.alone_ranged hrange htruthful.ranged hconsistent

/-- A routine that only reads, and agrees with what is stored, stays truthful. -/
theorem of_agrees (hreads : routine.Asks ServiceCall.IsReading)
    (hagrees : ∀ (forecast : Forecast) (exposed : Exposed), exposed.Truthful →
      Exposed.Agrees forecast exposed.market.HasItem exposed routine fun _ => False) :
    routine.StaysTruthful := by
  intro forecast exposed htruthful
  have hends := hagrees forecast.mended exposed htruthful
  have hsame := hends.market.trans (Market.alone_reads hreads exposed.market)
  constructor
  · rw [hsame]
    exact hends.faithful
  · rw [hsame]
    exact htruthful.ranged

end StaysTruthful

end ServiceRoutine

open ServiceRoutine (StaysTruthful)

theorem Errand.routine_staysTruthful {errand : Errand} (hregular : errand.isRegular = true)
    (hrange : errand.InRange) : StaysTruthful errand.routine := by
  cases hreads : errand.readsThrough with
  | false =>
      refine .of_tidy (routine_forgets hreads) (routine_inRange hrange) fun market hconsistent => ?_
      exact routine_tidy hregular hconsistent
  | true =>
      cases errand with
      | getItem ttl id =>
          refine .of_agrees (Query.getItem_reads ttl id) fun forecast exposed htruthful => ?_
          exact Exposed.agrees_getItem_truthful forecast htruthful ttl id
      | getBuyer ttl id =>
          refine .of_agrees (Query.getBuyer_reads ttl id) fun forecast exposed htruthful => ?_
          exact Exposed.agrees_getBuyer forecast htruthful.faithful htruthful.ranged ttl id
      | getFisherman ttl id =>
          refine .of_agrees (Query.getFisherman_reads ttl id) fun forecast exposed htruthful => ?_
          exact Exposed.agrees_getFisherman forecast htruthful.faithful htruthful.ranged ttl id
      | _ => cases hreads

theorem Visit.routine_staysTruthful (visit : Visit) :
    StaysTruthful (Trade.routine visit.business) := by
  obtain ⟨business, hregular, hrange⟩ := visit
  cases business with
  | errand work => exact Errand.routine_staysTruthful hregular hrange
  | request ttl now received =>
      apply Http.respond_of_errands StaysTruthful.done StaysTruthful.bind
      exact fun errand hregular herrand => Errand.routine_staysTruthful hregular (herrand hrange)

namespace Exposed

/-- After any visits in fair weather, the cache holds nothing but what is stored. -/
theorem after_truthful (visits : List Visit) : (after forecast.mended visits).Truthful := by
  induction visits using List.reverseRecOn with
  | nil => exact .initial
  | append_singleton visits visit ih =>
      rw [after_append, host]
      rcases visit.business.retreats forecast.mended (after forecast.mended visits) with
        hrun | ⟨after, hrun, hintact⟩
      · rw [hrun]
        exact visit.routine_staysTruthful forecast _ ih
      · rw [hrun]
        exact ih.intact hintact

end Exposed

/-! ## Texts that are read again -/

/-- Whether every text that a cache may hand out for an entity, at any moment, is read as the row
that is stored under the id. Ids are numbers of 64 bits. -/
def MemoryCache.Decodes [Recorded α] (cache : MemoryCache) (entity : Cache.Entity) (ident : α → Int)
    (table : Table α) : Prop :=
  ∀ id moment text, id ≤ Text.maxInt64 → cache.find? moment (Cache.key entity id) = some text →
    ∃ row, table.find? id = some row ∧ ident row = id ∧
      Record.readWhole α text.toList = .ok row

theorem MemoryCache.Mirrors.decodes [Recorded α] [LawfulRecorded α] {cache : MemoryCache}
    {entity : Cache.Entity} {ident : α → Int} {table : Table α}
    (hmirrors : cache.Mirrors entity fun id row => table.find? id = some row)
    (hkeyed : table.Keyed ident)
    (hranged : ∀ id row, table.find? id = some row → Recorded.RangedUnder id row) :
    cache.Decodes entity ident table := by
  intro id moment text hid hfind
  obtain ⟨row, hrow, rfl⟩ := hmirrors id text (holds_of_find? hfind)
  obtain ⟨hlegible, hfits⟩ := hranged id row hrow
  refine ⟨row, hrow, hkeyed id row hrow, ?_⟩
  rw [String.toList_ofList]
  exact Recorded.readWhole_json_of_inRange ⟨hfits hid, hlegible⟩

namespace Exposed

/-- Whether a run has come to what was expected, or was broken off within so many milliseconds of
the end of the clock. -/
def ComesTo (expected : α) (ttl : Nat) (ended : Option α × Exposed) : Prop :=
  ended.1 = some expected ∨ ended.1 = none ∧ ended.2.EndsWithin ttl

/-- A routine that retreats comes to what it would come to if the clock had no end. -/
theorem comesTo_of_retreats {routine : ServiceRoutine α} {ttl : Nat}
    (hretreats : routine.Retreats ttl) {exposed : Exposed} {expected : α}
    (hexpected : (routine.run (answer forecast) exposed).1 = expected) :
    ComesTo expected ttl (routine.run? (answer? forecast) exposed) := by
  rcases hretreats forecast exposed with hrun | ⟨after, hrun, hintact⟩
  · rw [hrun, hexpected]
    exact .inl rfl
  · rw [hrun]
    exact .inr ⟨rfl, hintact.ends⟩

/-- Whether nobody can tell by what is read through the cache that there is one. What the cache
holds is what is stored, and what is read, in any weather, is what the store says, `NotFound`
included, unless the reader is broken off. -/
structure Transparent (exposed : Exposed) : Prop where
  items : exposed.cache.Decodes .item Item.id exposed.market.items
  buyers : exposed.cache.Decodes .buyer Buyer.id exposed.market.buyers
  fishermen : exposed.cache.Decodes .fisherman Fisherman.id exposed.market.fishermen
  getItem : ∀ (forecast : Forecast) ttl id,
    ComesTo (Action.sought (.item id) (exposed.market.answer (.findItem id)).1) (Cache.itemTtl ttl)
      ((Query.getItem ttl id).run.run? (answer? forecast) exposed)
  getBuyer : ∀ (forecast : Forecast) ttl id,
    ComesTo (Action.sought (.buyer id) (exposed.market.answer (.findBuyer id)).1) ttl
      ((Query.getBuyer ttl id).run.run? (answer? forecast) exposed)
  getFisherman : ∀ (forecast : Forecast) ttl id,
    ComesTo (Action.sought (.fisherman id) (exposed.market.answer (.findFisherman id)).1) ttl
      ((Query.getFisherman ttl id).run.run? (answer? forecast) exposed)

/-- After any visits in fair weather the cache is transparent. -/
theorem transparent_after_visits (visits : List Visit) :
    (after forecast.mended visits).Transparent := by
  have htruthful := after_truthful forecast visits
  obtain ⟨hfaithful, hranged⟩ := id htruthful
  have hfiled := hfaithful.consistent.filed
  constructor
  · exact hfaithful.items.decodes hfiled.items hranged.items
  · exact hfaithful.buyers.decodes hfiled.buyers hranged.buyers
  · exact hfaithful.fishermen.decodes hfiled.fishermen hranged.fishermen
  · intro forecast ttl item
    have hread := (agrees_getItem_truthful forecast htruthful ttl item).outcome.resolve_right id
    rw [getItem_alone] at hread
    exact comesTo_of_retreats forecast (Errand.retreats (.getItem ttl item)) hread
  · intro forecast ttl buyer
    have hread := (agrees_getBuyer forecast hfaithful hranged ttl buyer).outcome.resolve_right id
    rw [getBuyer_alone] at hread
    exact comesTo_of_retreats forecast (Errand.retreats (.getBuyer ttl buyer)) hread
  · intro forecast ttl fisherman
    have hread :=
      (agrees_getFisherman forecast hfaithful hranged ttl fisherman).outcome.resolve_right id
    rw [getFisherman_alone] at hread
    exact comesTo_of_retreats forecast (Errand.retreats (.getFisherman ttl fisherman)) hread

/-! A time may be set that is as long as the clock of the cache. -/

/-- The instant at which somebody comes. -/
def someday : Instant :=
  ⟨⟨19792⟩, default⟩

theorem someday_readable : someday.Readable :=
  ⟨by decide, by decide⟩

/-- Somebody is registered as a buyer. -/
def newBuyer : Visit where
  business := .errand (.direct (.createBuyer "Lee" someday) ⟨nofun, rfl⟩)
  regular := rfl
  inRange := someday_readable

/-- Not with all settings that are accepted is everybody who reads a buyer told what the store
says. -/
theorem buyer_is_not_read_with_all_settings :
    ¬ ∀ (lookup : String → Option String) (settings : Settings),
      Settings.ofVariables lookup = .ok settings → settings.redisUrl? = none →
      ∀ (forecast : Forecast) (visits : List Visit) (id : Int),
        ((Query.getBuyer settings.cacheTtl id).run.run? (answer? forecast.mended)
            (after forecast.mended visits)).1 =
          some (Action.sought (.buyer id)
            ((after forecast.mended visits).market.answer (.findBuyer id)).1) := by
  intro htransparent
  let sunny : Forecast := fun _ => ⟨0, fun _ => false, false⟩
  let settings := Settings.kept 9223372036854775808
  have hread := htransparent _ settings Settings.ofVariables_keeping rfl sunny [newBuyer] 1
  have hnone : ((Query.getBuyer settings.cacheTtl 1).run.run? (answer? sunny.mended)
      (after sunny.mended [newBuyer])).1.isNone = true := by decide +kernel
  rw [hread] at hnone
  cases hnone

end Exposed

end FishMarket
