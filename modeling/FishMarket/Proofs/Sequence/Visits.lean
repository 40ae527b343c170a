import Mathlib.Data.List.Induction
import FishMarket.Proofs.Http.Errands
import FishMarket.Proofs.Sequence.Forgetting
import FishMarket.Proofs.Service.BreakingOff

/-! # One visit after the other

People come to the service with their business one after the other, each of them leaving before the
next one comes. A visit comes to something, or it is broken off near the end of the clock of the
cache. Whoever is broken off leaves the market as it was, and brings nothing into the cache.
-/

namespace FishMarket

open Calendar

variable {α β : Type}

/-! ## Visits -/

namespace Business

/-- Whether no item is changed or deleted by hand, behind the back of the cache. -/
def isRegular : Business → Bool
  | errand work => work.isRegular
  | request _ _ _ => true

/-- Whether what a business may add to the market is within the ranges of its fields. -/
def InRange : Business → Prop
  | errand work => work.InRange
  | request _ now _ => now.Readable

/-- The longest time in milliseconds for which a business wants something to be cached. -/
def ttl : Business → Nat
  | errand work => work.ttl
  | request ttl _ _ => ttl

end Business

/-- Somebody's visit to the service. -/
structure Visit where
  business : Business
  regular : business.isRegular = true
  inRange : business.InRange

/-- What a visit comes to. -/
abbrev Visit.Outcome (visit : Visit) : Type :=
  visit.business.Outcome

namespace Exposed

/-- Receives a visitor, who may be broken off. -/
def host (exposed : Exposed) (forecast : Forecast) (visit : Visit) :
    Option visit.Outcome × Exposed :=
  (Trade.routine visit.business).run? (answer? forecast) exposed

/-- The service after some visits. -/
def after (forecast : Forecast) (visits : List Visit) : Exposed :=
  visits.foldl (fun exposed visit => (exposed.host forecast visit).2) initial

theorem after_append (forecast : Forecast) (visits : List Visit) (visit : Visit) :
    after forecast (visits ++ [visit]) = ((after forecast visits).host forecast visit).2 := by
  rw [after, List.foldl_append]
  rfl

/-- As visits follow each other the end of the clock comes nearer. -/
theorem endsWithin_after_append {forecast : Forecast} {ttl : Nat} {visits : List Visit}
    (hends : (after forecast visits).EndsWithin ttl) (later : List Visit) :
    (after forecast (visits ++ later)).EndsWithin ttl := by
  induction later using List.reverseRecOn with
  | nil => rwa [List.append_nil]
  | append_singleton later visit ih =>
      rw [← List.append_assoc, after_append]
      exact Nat.le_trans ih (Nat.add_le_add_right (moment_le_run? forecast _ _) ttl)

/-! ## Reading through the cache -/

theorem findItem_loads (id : Int) :
    (Action.store (.findItem id)).Loads fun market => market.items.find? id where
  forgets := .store _
  alone _ := rfl

theorem findBuyer_loads (id : Int) :
    (Action.store (.findBuyer id)).Loads fun market => market.buyers.find? id where
  forgets := .store _
  alone _ := rfl

theorem findFisherman_loads (id : Int) :
    (Action.store (.findFisherman id)).Loads fun market => market.fishermen.find? id where
  forgets := .store _
  alone _ := rfl

end Exposed

/-! ## Visits that are broken off -/

theorem Errand.retreats (errand : Errand) : errand.routine.Retreats errand.ttl := by
  cases hreads : errand.readsThrough with
  | false => exact .of_forgets (Errand.routine_forgets hreads)
  | true =>
      cases errand with
      | getItem ttl id => exact Action.fetch_retreats (Exposed.findItem_loads id) _ _ _
      | getBuyer ttl id => exact Action.fetch_retreats (Exposed.findBuyer_loads id) _ _ _
      | getFisherman ttl id => exact Action.fetch_retreats (Exposed.findFisherman_loads id) _ _ _
      | _ => cases hreads

namespace Http

open ServiceRoutine (Retreats)

variable (ttl : Nat) (now : Instant) (request : Request)

theorem handle_retreats (resource : Resource) :
    Retreats ttl (handle ttl now request resource).run := by
  by_cases hbids : resource = .buyerBids
  · subst hbids
    rcases handle_buyerBids ttl now request with ⟨outcome, heq⟩ | ⟨buyer, place, -, -, heq⟩
    · rw [heq]
      exact .of_forgets trivial
    · rw [heq]
      refine (Errand.retreats (.getBuyer ttl buyer)).bind fun found => ?_
      cases found with
      | error failure => exact trivial
      | ok found => exact (Command.placeBid_forgets place now).bind fun _ => trivial
  · by_cases hitem : ∃ id, resource = .item id
    · obtain ⟨text, rfl⟩ := hitem
      rw [handle_item]
      split
      next id _ =>
        have hfetch := (Errand.retreats (.getItem ttl id)).mono (Nat.min_le_left ttl _)
        exact hfetch.bind fun _ => trivial
      next => exact .of_forgets trivial
    · have hother : ∀ id, resource ≠ .item id := fun id heq => hitem ⟨id, heq⟩
      rcases handle_runs hbids hother with ⟨outcome, heq⟩ | ⟨errand, hserved, make, heq⟩
      · rw [heq]
        exact .of_forgets trivial
      · rw [heq]
        exact (errand.retreats.mono hserved.ttl_le).bind fun _ => trivial

theorem respond_retreats : Retreats ttl (respond ttl now request) := by
  rcases respond_cases ttl now request with ⟨response, heq⟩ | ⟨resource, -, -, heq⟩
  · rw [heq]
    exact .of_forgets trivial
  · rw [heq]
    exact (handle_retreats ttl now request resource).bind fun _ => trivial

end Http

/-- Whatever somebody comes for, whoever is broken off has changed nothing. -/
theorem Business.retreats (business : Business) :
    (Trade.routine business).Retreats business.ttl := by
  cases business with
  | errand work => exact work.retreats
  | request ttl now received => exact Http.respond_retreats ttl now received

namespace Exposed

/-- Nobody is broken off as long as the clock does not end too soon for what they want cached. -/
theorem host_of_not_endsWithin {exposed : Exposed} {forecast : Forecast} {visit : Visit} {ttl : Nat}
    (hvisit : visit.business.ttl ≤ ttl)
    (hlasts : ¬ (exposed.host forecast visit).2.EndsWithin ttl) :
    let ended := (Trade.routine visit.business).run (answer forecast) exposed
    exposed.host forecast visit = (some ended.1, ended.2) := by
  refine (visit.business.retreats forecast exposed).resolve_right ?_
  rintro ⟨after, hrun, hintact⟩
  refine hlasts ?_
  rw [host, hrun]
  exact hintact.ends.mono hvisit

end Exposed

/-! ## The market by itself -/

namespace Market

/-- What a visit comes to without a cache. -/
def host (market : Market) (visit : Visit) : visit.Outcome × Market :=
  (Trade.routine visit.business).run alone market

/-- The market after some visits, if there is no cache. -/
def after (visits : List Visit) : Market :=
  visits.foldl (fun market visit => (market.host visit).2) initial

theorem after_append (visits : List Visit) (visit : Visit) :
    after (visits ++ [visit]) = ((after visits).host visit).2 := by
  rw [after, List.foldl_append]
  rfl

variable {market : Market}

theorem alone_stable {property : Market → Prop} (hstable : Stable property)
    (routine : ServiceRoutine α) (hholds : property market) (hconsistent : market.Consistent) :
    property (routine.run alone market).2 := by
  induction routine generalizing market with
  | done value => exact hholds
  | ask call next ih =>
      cases call with
      | store call =>
          exact ih _ (hstable.take hholds hconsistent (.call call))
            (hconsistent.take (.call call))
      | cache call => cases call <;> exact ih _ hholds hconsistent

end Market

end FishMarket
