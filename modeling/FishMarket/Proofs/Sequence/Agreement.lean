import FishMarket.Proofs.Sequence.Visits

/-! # Agreement with a market without a cache

In any weather a routine that is not broken off leaves the market as it would be left without a
cache, and comes to what it would come to then. The one exception is reading an item: it may come to
a row that was left in the cache. So what may be relied on is that buyers and fishermen are cached
as they are stored, and of items nothing but certain rows.
-/

namespace FishMarket

open Calendar

variable {α β : Type}

/-! ## What the cache may hold -/

/-- Whether the cache holds certain rows of items, and of the parties nothing but what is stored. -/
structure Exposed.Faithful (held : Int → Item → Prop) (exposed : Exposed) : Prop where
  consistent : exposed.market.Consistent
  items : exposed.cache.Mirrors .item held
  buyers : exposed.cache.Mirrors .buyer fun id buyer =>
    exposed.market.buyers.find? id = some buyer
  fishermen : exposed.cache.Mirrors .fisherman fun id fisherman =>
    exposed.market.fishermen.find? id = some fisherman

namespace Exposed

variable {forecast : Forecast} {exposed later : Exposed} {held : Int → Item → Prop}

namespace Faithful

theorem initial : Exposed.initial.Faithful held where
  consistent := Market.Consistent.initial
  items := MemoryCache.mirrors_empty _ _
  buyers := MemoryCache.mirrors_empty _ _
  fishermen := MemoryCache.mirrors_empty _ _

theorem mono {other : Int → Item → Prop} (hfaithful : exposed.Faithful held)
    (hother : ∀ id item, held id item → other id item) : exposed.Faithful other :=
  { hfaithful with items := hfaithful.items.mono hother }

theorem of_market (hfaithful : exposed.Faithful held) (hmarket : later.market = exposed.market)
    (hitems : later.cache.Mirrors .item held)
    (hbuyers : later.cache.Mirrors .buyer fun id buyer =>
      exposed.market.buyers.find? id = some buyer)
    (hfishermen : later.cache.Mirrors .fisherman fun id fisherman =>
      exposed.market.fishermen.find? id = some fisherman) : later.Faithful held := by
  constructor
  · rw [hmarket]
    exact hfaithful.consistent
  · exact hitems
  · rw [hmarket]
    exact hbuyers
  · rw [hmarket]
    exact hfishermen

end Faithful

/-- Whether a routine that is carried out in some weather comes to what it would come to without a
cache, except for what is excused, and leaves a cache that may be relied on. -/
structure Agrees (forecast : Forecast) (held : Int → Item → Prop) (exposed : Exposed)
    (routine : ServiceRoutine α) (excused : α → Prop) : Prop where
  outcome : (routine.run (answer forecast) exposed).1 =
      (routine.run Market.alone exposed.market).1 ∨
    excused (routine.run (answer forecast) exposed).1
  market : (routine.run (answer forecast) exposed).2.market =
    (routine.run Market.alone exposed.market).2
  faithful : (routine.run (answer forecast) exposed).2.Faithful held

namespace Agrees

variable {routine : ServiceRoutine α} {excused other : α → Prop}

theorem bind {next : α → ServiceRoutine β} {excused : β → Prop}
    (hfirst : Agrees forecast held exposed routine fun _ => False)
    (hnext : ∀ value (between : Exposed), between.Faithful held →
      Agrees forecast held between (next value) excused) :
    Agrees forecast held exposed (routine.bind next) excused := by
  have hsame := hfirst.outcome.resolve_right id
  obtain ⟨houtcome, hmarket, hfaithful⟩ :=
    hnext (routine.run (answer forecast) exposed).1 _ hfirst.faithful
  rw [hfirst.market] at houtcome hmarket
  constructor <;> simp only [Routine.run_bind]
  · rw [← hsame]
    exact houtcome
  · rw [← hsame]
    exact hmarket
  · exact hfaithful

theorem map {excused : β → Prop} {make : α → β}
    (hagrees : Agrees forecast held exposed routine other)
    (hmake : ∀ value, other value → excused (make value)) :
    Agrees forecast held exposed (routine.bind fun value => .done (make value)) excused := by
  constructor <;> rw [Routine.run_bind]
  · rw [Routine.run_bind]
    exact hagrees.outcome.imp (congrArg make) (hmake _)
  · rw [Routine.run_bind]
    exact hagrees.market
  · exact hagrees.faithful

theorem done (hfaithful : exposed.Faithful held) (value : α) (excused : α → Prop) :
    Agrees forecast held exposed (.done value) excused :=
  ⟨.inl rfl, rfl, hfaithful⟩

/-- A routine that only forgets agrees. -/
theorem of_forgets (hfaithful : exposed.Faithful held) (hforgets : routine.Forgets)
    (excused : α → Prop) : Agrees forecast held exposed routine excused := by
  obtain ⟨houtcome, hmarket, hwithin⟩ := hforgets.run forecast exposed
  have hconsistent := hfaithful.consistent
  -- parties are never changed, so what mirrored them before the routine does so after it
  refine ⟨.inl houtcome, hmarket, ?_, hfaithful.items.within hwithin, ?_, ?_⟩
  · rw [hmarket]
    exact Market.alone_stable Market.Consistent.stable routine hconsistent hconsistent
  · refine (hfaithful.buyers.within hwithin).mono fun id buyer hfound => ?_
    exact hmarket ▸ Market.alone_stable (Market.buyer_stable id buyer) routine hfound hconsistent
  · refine (hfaithful.fishermen.within hwithin).mono fun id fisherman hfound => ?_
    exact hmarket ▸
      Market.alone_stable (Market.fisherman_stable id fisherman) routine hfound hconsistent

end Agrees

/-! ## Reading through the cache -/

variable (forecast)

theorem getItem_alone (ttl : Nat) (id : Int) (market : Market) :
    (Query.getItem ttl id).run.run Market.alone market =
      (Action.sought (.item id) (.ok (market.items.find? id)), market) :=
  Action.fetch_alone (findItem_loads id) _ _ _ market

theorem getBuyer_alone (ttl : Nat) (id : Int) (market : Market) :
    (Query.getBuyer ttl id).run.run Market.alone market =
      (Action.sought (.buyer id) (.ok (market.buyers.find? id)), market) :=
  Action.fetch_alone (findBuyer_loads id) _ _ _ market

theorem getFisherman_alone (ttl : Nat) (id : Int) (market : Market) :
    (Query.getFisherman ttl id).run.run Market.alone market =
      (Action.sought (.fisherman id) (.ok (market.fishermen.find? id)), market) :=
  Action.fetch_alone (findFisherman_loads id) _ _ _ market

/-- Reading an item comes to what is stored, or to a row that the cache may hold. -/
theorem agrees_getItem (hfaithful : exposed.Faithful held)
    (hheld : ∀ id item, exposed.market.items.find? id = some item → held id item)
    (hlegible : ∀ id item, held id item → Recorded.Legible item) (ttl : Nat) (id : Int) :
    Agrees forecast held exposed (Query.getItem ttl id).run
      fun outcome => ∃ item, held id item ∧ outcome = .ok item := by
  obtain ⟨hmarket, -, hlearns⟩ := Action.run_fetch forecast id (findItem_loads id)
    hfaithful.items (Cache.itemTtl ttl) (.item id)
  constructor
  · rw [getItem_alone]
    exact Action.run_fetch_held forecast id (findItem_loads id) hfaithful.items (hlegible id) _ _
  · rw [getItem_alone]
    exact hmarket
  · apply hfaithful.of_market hmarket
    · exact hlearns.mirrors hfaithful.items (hheld id)
    · exact hlearns.mirrors_other (by decide) hfaithful.buyers
    · exact hlearns.mirrors_other (by decide) hfaithful.fishermen

theorem agrees_getBuyer (hfaithful : exposed.Faithful held) (hranged : exposed.market.Ranged)
    (ttl : Nat) (id : Int) :
    Agrees forecast held exposed (Query.getBuyer ttl id).run fun _ => False := by
  obtain ⟨hmarket, -, hlearns⟩ := Action.run_fetch forecast id (findBuyer_loads id)
    hfaithful.buyers ttl (.buyer id)
  constructor
  · rw [getBuyer_alone]
    exact .inl (Action.run_fetch_stored forecast id (findBuyer_loads id) hfaithful.buyers
      (fun _ hfound => hfound) (fun buyer hfound => (hranged.buyers id buyer hfound).legible) ttl _)
  · rw [getBuyer_alone]
    exact hmarket
  · apply hfaithful.of_market hmarket
    · exact hlearns.mirrors_other (by decide) hfaithful.items
    · exact hlearns.mirrors hfaithful.buyers fun _ hfound => hfound
    · exact hlearns.mirrors_other (by decide) hfaithful.fishermen

theorem agrees_getFisherman (hfaithful : exposed.Faithful held) (hranged : exposed.market.Ranged)
    (ttl : Nat) (id : Int) :
    Agrees forecast held exposed (Query.getFisherman ttl id).run fun _ => False := by
  obtain ⟨hmarket, -, hlearns⟩ := Action.run_fetch forecast id (findFisherman_loads id)
    hfaithful.fishermen ttl (.fisherman id)
  constructor
  · rw [getFisherman_alone]
    exact .inl (Action.run_fetch_stored forecast id (findFisherman_loads id) hfaithful.fishermen
      (fun _ hfound => hfound)
      (fun fisherman hfound => (hranged.fishermen id fisherman hfound).legible) ttl _)
  · rw [getFisherman_alone]
    exact hmarket
  · apply hfaithful.of_market hmarket
    · exact hlearns.mirrors_other (by decide) hfaithful.items
    · exact hlearns.mirrors_other (by decide) hfaithful.buyers
    · exact hlearns.mirrors hfaithful.fishermen fun _ hfound => hfound

end Exposed

/-! ## Any business -/

/-- Whether somebody reads an item who asks for it in a request. -/
structure Http.Request.ReadsItem (request : Http.Request) (id : Int) : Prop where
  method : request.method = .get ∨ request.method = .head
  path : ∃ text, Resource.ofPath? request.path = some (.item text) ∧ pathId text = .ok id

/-- Whether somebody reads an item, and what is read of it is as described. -/
def Errand.ReadsItem (described : Int → Except Failure Item → Prop) :
    (errand : Errand) → errand.Outcome → Prop
  | .getItem _ id, outcome => described id outcome
  | _, _ => False

/-- Whether somebody reads an item, and what is read of it is as described. -/
def Business.ReadsItem (described : Int → Except Failure Item → Prop) :
    (business : Business) → business.Outcome → Prop
  | .errand work, outcome => work.ReadsItem described outcome
  | .request _ _ received, response => ∃ id outcome, received.ReadsItem id ∧
      described id outcome ∧ response = Http.finish received.method (Http.itemReply outcome)

theorem Business.ReadsItem.mono {described other : Int → Except Failure Item → Prop}
    (hother : ∀ id read, described id read → other id read) {business : Business}
    {outcome : business.Outcome} (hreads : business.ReadsItem described outcome) :
    business.ReadsItem other outcome := by
  cases business with
  | errand work =>
      cases work with
      | getItem ttl id => exact hother id outcome hreads
      | _ => exact hreads
  | request ttl now received =>
      obtain ⟨id, read, hreceived, hdescribed, heq⟩ := hreads
      exact ⟨id, read, hreceived, hother id read hdescribed, heq⟩

theorem Business.not_readsItem (business : Business) (outcome : business.Outcome) :
    ¬ business.ReadsItem (fun _ _ => False) outcome := by
  cases business with
  | errand work => cases work <;> exact id
  | request ttl now received =>
      rintro ⟨id, read, -, hfalse, -⟩
      exact hfalse

namespace Exposed

variable {forecast : Forecast} {exposed : Exposed} {held : Int → Item → Prop}
  {described : Int → Except Failure Item → Prop}

/-- Whether a routine that reads an item comes to what is stored, or to what is described. -/
def ReadsAsDescribed (forecast : Forecast) (held : Int → Item → Prop) (exposed : Exposed)
    (described : Int → Except Failure Item → Prop) : Prop :=
  ∀ ttl id, Agrees forecast held exposed (Query.getItem ttl id).run (described id)

theorem agrees_errand (hfaithful : exposed.Faithful held) (hranged : exposed.market.Ranged)
    (hitem : ReadsAsDescribed forecast held exposed described) (errand : Errand) :
    Agrees forecast held exposed errand.routine (errand.ReadsItem described) := by
  cases hreads : errand.readsThrough with
  | false => exact .of_forgets hfaithful (Errand.routine_forgets hreads) _
  | true =>
      cases errand with
      | getItem ttl id => exact hitem ttl id
      | getBuyer ttl id => exact agrees_getBuyer forecast hfaithful hranged ttl id
      | getFisherman ttl id => exact agrees_getFisherman forecast hfaithful hranged ttl id
      | _ => cases hreads

/-- Handling a request for anything but an item comes to what it would come to without a cache. -/
theorem agrees_handle (hfaithful : exposed.Faithful held) (hranged : exposed.market.Ranged)
    (hitem : ReadsAsDescribed forecast held exposed described) (ttl : Nat) (now : Instant)
    (request : Http.Request) {resource : Http.Resource}
    (hresource : ∀ text, resource ≠ .item text) :
    Agrees forecast held exposed (Http.handle ttl now request resource).run fun _ => False := by
  by_cases hbids : resource = .buyerBids
  · subst hbids
    rcases Http.handle_buyerBids ttl now request with ⟨outcome, heq⟩ | ⟨buyer, place, -, -, heq⟩
    · rw [heq]
      exact .done hfaithful outcome _
    · rw [heq]
      -- the buyer is found, or not found, as without a cache: a bid is placed in the same cases
      have hfetch := agrees_getBuyer forecast hfaithful hranged ttl buyer
      refine hfetch.bind fun found between hbetween => .of_forgets hbetween ?_ _
      cases found with
      | error failure => exact trivial
      | ok found => exact (Command.placeBid_forgets place now).bind fun _ => trivial
  · rcases Http.handle_runs hbids hresource with ⟨outcome, heq⟩ | ⟨errand, hserved, make, heq⟩
    · rw [heq]
      exact .done hfaithful outcome _
    · rw [heq]
      refine (agrees_errand hfaithful hranged hitem errand).map fun outcome hreads => ?_
      cases errand with
      | getItem ttl id => exact hserved.noItem ttl id rfl
      | _ => exact hreads

theorem agrees_respond (hfaithful : exposed.Faithful held) (hranged : exposed.market.Ranged)
    (hitem : ReadsAsDescribed forecast held exposed described) (ttl : Nat) (now : Instant)
    (request : Http.Request) :
    Agrees forecast held exposed (Http.respond ttl now request)
      (Business.ReadsItem described (.request ttl now request)) := by
  rcases Http.respond_cases ttl now request with
    ⟨response, heq⟩ | ⟨resource, hpath, haccepts, heq⟩
  · rw [heq]
    exact .done hfaithful response _
  · rw [heq]
    by_cases hresource : ∃ text, resource = .item text
    · obtain ⟨text, rfl⟩ := hresource
      rw [Http.handle_item]
      cases hid : Http.pathId text with
      | error refusal => exact .done hfaithful _ _
      | ok id =>
          dsimp only
          rw [Routine.bind_assoc]
          refine (hitem ttl id).map fun outcome hdescribed => ?_
          exact ⟨id, outcome, ⟨Http.accepts_item haccepts, text, hpath, hid⟩, hdescribed, rfl⟩
    · have hother := agrees_handle hfaithful hranged hitem ttl now request fun text heq =>
        hresource ⟨text, heq⟩
      exact hother.map fun _ => False.elim

/-- Any business comes to what it would come to without a cache, unless somebody reads an item. -/
theorem agrees_business (hfaithful : exposed.Faithful held) (hranged : exposed.market.Ranged)
    (hitem : ReadsAsDescribed forecast held exposed described) (business : Business) :
    Agrees forecast held exposed (Trade.routine business) (business.ReadsItem described) := by
  cases business with
  | errand work => exact agrees_errand hfaithful hranged hitem work
  | request ttl now received => exact agrees_respond hfaithful hranged hitem ttl now received

end Exposed

end FishMarket
