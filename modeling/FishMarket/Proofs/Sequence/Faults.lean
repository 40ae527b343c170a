import FishMarket.Proofs.Sequence.Transparency

/-! # Faults of the cache

A cache that fails now and then makes no difference to the market, nor to what anybody comes to who
does not read an item, as long as its clock lasts. Buyers and fishermen are never changed, so what
is cached of them is never stale. Items are, and a row of an item that could not be forgotten may be
handed out later on, even when the item is gone.
-/

namespace FishMarket

open Calendar

/-! ## Clocks that last -/

namespace Exposed

variable {forecast : Forecast} {visits : List Visit} {visit : Visit}

/-- Whether the clock of the cache does not end, within the times for which the visitors want
something cached, before they have left. -/
def Lasts (forecast : Forecast) (visits : List Visit) : Prop :=
  ∀ visit ∈ visits, ¬ (after forecast visits).EndsWithin visit.business.ttl

instance (forecast : Forecast) (visits : List Visit) : Decidable (Lasts forecast visits) :=
  inferInstanceAs (Decidable (∀ visit ∈ visits, _))

namespace Lasts

theorem of_append {later : List Visit} (hlasts : Lasts forecast (visits ++ later)) :
    Lasts forecast visits := by
  intro visit hmem hends
  exact hlasts visit (List.mem_append_left later hmem) (endsWithin_after_append hends later)

/-- The last visitor is not broken off. -/
theorem host (hlasts : Lasts forecast (visits ++ [visit])) :
    let ended := (Trade.routine visit.business).run (answer forecast) (after forecast visits)
    (after forecast visits).host forecast visit = (some ended.1, ended.2) := by
  have hlast := hlasts visit (List.mem_append_right visits (List.mem_singleton_self visit))
  rw [after_append] at hlast
  exact host_of_not_endsWithin (Nat.le_refl _) hlast

end Lasts

end Exposed

/-! ## Earlier rows -/

/-- Whether a row was stored under the id of an item at some time during some visits. -/
def Market.Past (visits : List Visit) (id : Int) (item : Item) : Prop :=
  ∃ earlier, earlier <+: visits ∧ (after earlier).items.find? id = some item

namespace Market.Past

variable {visits : List Visit} {id : Int} {item : Item}

theorem append (hpast : Past visits id item) (later : List Visit) :
    Past (visits ++ later) id item := by
  obtain ⟨earlier, hprefix, hitem⟩ := hpast
  exact ⟨earlier, hprefix.trans (List.prefix_append _ _), hitem⟩

theorem legible (hpast : Past visits id item) : Recorded.Legible item := by
  obtain ⟨earlier, -, hitem⟩ := hpast
  exact ((after_ranged earlier).1.items id item hitem).legible

end Market.Past

namespace Exposed

section

variable {forecast : Forecast} {visits : List Visit}

theorem agrees_after (hfaithful : (after forecast visits).Faithful (Market.Past visits))
    (hmarket : (after forecast visits).market = Market.after visits) (visit : Visit) :
    Agrees forecast (Market.Past visits) (after forecast visits) (Trade.routine visit.business)
      (visit.business.ReadsItem fun id outcome =>
        ∃ item, Market.Past visits id item ∧ outcome = .ok item) := by
  have hranged : (after forecast visits).market.Ranged := by
    rw [hmarket]
    exact (Market.after_ranged visits).1
  refine agrees_business hfaithful hranged ?_ visit.business
  refine agrees_getItem forecast hfaithful (fun id item hitem => ?_) fun _ _ => Market.Past.legible
  exact ⟨visits, List.prefix_refl _, hmarket ▸ hitem⟩

/-- In any weather the market goes through the same states, and the cache holds nothing but rows
that were stored at some time. -/
theorem after_faithful (hlasts : Lasts forecast visits) :
    (after forecast visits).market = Market.after visits ∧
      (after forecast visits).Faithful (Market.Past visits) := by
  induction visits using List.reverseRecOn with
  | nil => exact ⟨rfl, .initial⟩
  | append_singleton visits visit ih =>
      obtain ⟨hmarket, hfaithful⟩ := ih hlasts.of_append
      have hagrees := agrees_after hfaithful hmarket visit
      rw [after_append, Market.after_append, hlasts.host]
      constructor
      · rw [← hmarket]
        exact hagrees.market
      · exact hagrees.faithful.mono fun _ _ hpast => hpast.append [visit]

theorem after_market (hlasts : Lasts forecast visits) :
    (after forecast visits).market = Market.after visits :=
  (after_faithful hlasts).1

/-- In any weather a visit comes to what it would come to without a cache, unless somebody reads an
item and gets an earlier row. -/
theorem host_outcome {visit : Visit} (hlasts : Lasts forecast (visits ++ [visit])) :
    ∃ outcome, ((after forecast visits).host forecast visit).1 = some outcome ∧
      (outcome = ((Market.after visits).host visit).1 ∨
        visit.business.ReadsItem
          (fun id read => ∃ item, Market.Past visits id item ∧ read = .ok item) outcome) := by
  obtain ⟨hmarket, hfaithful⟩ := after_faithful hlasts.of_append
  rw [hlasts.host]
  refine ⟨_, rfl, ?_⟩
  rw [← hmarket]
  exact (agrees_after hfaithful hmarket visit).outcome

end

/-- In fair weather a visit comes to what it would come to without a cache. -/
theorem host_mended {forecast : Forecast} {visits : List Visit} {visit : Visit}
    (hlasts : Lasts forecast.mended (visits ++ [visit])) :
    ((after forecast.mended visits).host forecast.mended visit).1 =
      some ((Market.after visits).host visit).1 := by
  have htruthful := after_truthful forecast visits
  have hagrees := agrees_business htruthful.faithful htruthful.ranged
    (agrees_getItem_truthful forecast.mended htruthful) visit.business
  rw [hlasts.host, ← after_market hlasts.of_append]
  exact congrArg some (hagrees.outcome.resolve_right (visit.business.not_readsItem _))

/-- Whether a row was stored under the id of an item after some of the visits. -/
def Past (forecast : Forecast) (visits : List Visit) (id : Int) (item : Item) : Prop :=
  ∃ earlier, earlier <+: visits ∧ (after forecast earlier).market.items.find? id = some item

theorem past_of_market {forecast : Forecast} {visits : List Visit} (hlasts : Lasts forecast visits)
    {id : Int} {item : Item} (hpast : Market.Past visits id item) :
    Past forecast visits id item := by
  obtain ⟨earlier, ⟨later, rfl⟩, hitem⟩ := hpast
  refine ⟨earlier, List.prefix_append _ _, ?_⟩
  rw [after_market hlasts.of_append]
  exact hitem

/-- What happens in any weather, compared with what happens to the same visitors while the cache
always answers. As long as both clocks last the market goes through the same states, and each visit
comes to the same, except that somebody who reads an item, in a query or in a request, may get a row
that the item had earlier. -/
theorem faults_stay_hidden (rough fair : Forecast) (visits : List Visit) (visit : Visit)
    (hrough : Lasts rough (visits ++ [visit])) (hfair : Lasts fair.mended (visits ++ [visit])) :
    (after rough (visits ++ [visit])).market = (after fair.mended (visits ++ [visit])).market ∧
    ∃ outcome expected,
      ((after rough visits).host rough visit).1 = some outcome ∧
      ((after fair.mended visits).host fair.mended visit).1 = some expected ∧
      (outcome = expected ∨
        visit.business.ReadsItem
          (fun id read => ∃ item, Past fair.mended visits id item ∧ read = .ok item) outcome) := by
  refine ⟨(after_market hrough).trans (after_market hfair).symm, ?_⟩
  obtain ⟨outcome, houtcome, hread⟩ := host_outcome hrough
  refine ⟨outcome, _, houtcome, host_mended hfair, hread.imp_right fun hreads => ?_⟩
  refine hreads.mono fun id read ⟨item, hpast, heq⟩ => ?_
  exact ⟨item, past_of_market hfair.of_append hpast, heq⟩

/-! A request for the head of an item is answered like one for the item, without the body. So its
status may be that of an item that is gone. -/

namespace Lost

/-- The cache gives no answer at the tenth call of the service, which is to forget the item. -/
def rough : Forecast :=
  fun call => ⟨0, fun _ => false, call = 9⟩

/-- An item is offered and looked at, and then its auction is deleted. -/
def visits : List Visit := [
  ⟨.errand (.direct (.createVenue ⟨"Pier", "1", ""⟩ someday) ⟨nofun, rfl⟩), rfl, trivial⟩,
  ⟨.errand (.direct (.createAuction ⟨1, ⟨19800⟩, none, none, none⟩ someday) ⟨nofun, rfl⟩), rfl,
    trivial⟩,
  ⟨.errand (.direct (.createFisherman "Kim" someday) ⟨nofun, rfl⟩), rfl, someday_readable⟩,
  ⟨.errand (.direct (.createItem ⟨2, 3, "cod", 1, "kg", none, 0⟩ someday) ⟨nofun, rfl⟩), rfl,
    ⟨by decide, by decide, by decide, by decide⟩, someday_readable⟩,
  ⟨.errand (.getItem 3600000 4), rfl, trivial⟩,
  ⟨.errand (.deleteAuction 2), rfl, trivial⟩]

/-- Somebody asks for the head of the item. -/
def head : Visit where
  business := .request 3600000 someday ⟨.head, "/api/items/4", [], .empty⟩
  regular := rfl
  inRange := someday_readable

theorem rough_lasts : Lasts rough (visits ++ [head]) := by
  decide +kernel

theorem fair_lasts : Lasts rough.mended (visits ++ [head]) := by
  decide +kernel

theorem rough_status :
    ((after rough visits).host rough head).1.map Http.Response.status = some 200 := by
  decide +kernel

theorem fair_status :
    ((after rough.mended visits).host rough.mended head).1.map Http.Response.status =
      some 404 := by
  decide +kernel

end Lost

/-- The market is the same, and whoever asks for the head of the item is answered with its earlier
row. -/
theorem head_request_gets_earlier_row :
    Lasts Lost.rough (Lost.visits ++ [Lost.head]) ∧
    Lasts Lost.rough.mended (Lost.visits ++ [Lost.head]) ∧
    (after Lost.rough (Lost.visits ++ [Lost.head])).market =
      (after Lost.rough.mended (Lost.visits ++ [Lost.head])).market ∧
    ∃ outcome, ((after Lost.rough Lost.visits).host Lost.rough Lost.head).1 = some outcome ∧
      Lost.head.business.ReadsItem
        (fun id read => ∃ item, Past Lost.rough.mended Lost.visits id item ∧ read = .ok item)
        outcome := by
  obtain ⟨hmarket, outcome, expected, houtcome, hexpected, hread⟩ :=
    faults_stay_hidden Lost.rough Lost.rough Lost.visits Lost.head Lost.rough_lasts Lost.fair_lasts
  refine ⟨Lost.rough_lasts, Lost.fair_lasts, hmarket, outcome, houtcome, ?_⟩
  refine hread.resolve_left ?_
  rintro rfl
  have hsame := Lost.rough_status
  rw [houtcome, ← hexpected, Lost.fair_status] at hsame
  cases hsame

/-- Not only those notice a fault who look for an item or get one in a request, even though the
clocks last. -/
theorem head_request_notices_fault :
    ¬ ∀ (rough fair : Forecast) (visits : List Visit) (visit : Visit),
      Lasts rough (visits ++ [visit]) → Lasts fair.mended (visits ++ [visit]) →
      (∀ ttl id, visit.business ≠ .errand (.getItem ttl id)) →
      (∀ ttl now request, visit.business = .request ttl now request → request.method ≠ .get) →
      ((after rough visits).host rough visit).1 =
        ((after fair.mended visits).host fair.mended visit).1 := by
  intro hhidden
  have hhead : ∀ ttl now request, Lost.head.business = .request ttl now request →
      request.method ≠ .get := by
    rintro ttl now request ⟨⟩
    exact nofun
  -- the row that was cached when somebody looked at the item is what the request comes to
  have hsame := hhidden Lost.rough Lost.rough Lost.visits Lost.head Lost.rough_lasts
    Lost.fair_lasts nofun hhead
  have hstatus := Lost.rough_status
  rw [hsame, Lost.fair_status] at hstatus
  cases hstatus

end Exposed

end FishMarket
