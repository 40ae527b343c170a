import FishMarket.Command
import FishMarket.Proofs.Market.Rows
import FishMarket.Proofs.Settlement.Progress

/-! # Writing an item and forgetting it

Whoever changes an item first writes it to the store, with one call, and then takes it out of the
cache. He does nothing to any other item, and he does not end well before he has done both.
-/

namespace FishMarket

open Calendar

/-! ## Calls that write items -/

namespace ServiceCall

/-- Whether an answer confirms that an item was written. -/
def writesItem : (call : ServiceCall) → call.Answer → Bool
  | .store (.updateItemStatus _ _), .ok (some _) => true
  | .store (.commit _), .ok _ => true
  | _, _ => false

/-- Whether a call takes an item out of the cache. -/
def forgetsItem (id : Int) : ServiceCall → Bool
  | .cache (.delete key) => key = Cache.itemKey id
  | _ => false

theorem eq_of_forgetsItem {id : Int} {call : ServiceCall} (hforgets : call.forgetsItem id = true) :
    call = .cache (.delete (Cache.itemKey id)) := by
  unfold forgetsItem at hforgets
  split at hforgets
  next key => rw [of_decide_eq_true hforgets]
  next => cases hforgets

end ServiceCall

/-- What somebody has done about an item: whether it has been written, and whether it has been
taken out of the cache. -/
@[ext]
structure Publication where
  written : Bool
  forgotten : Bool

namespace Publication

/-- Nothing has been done yet. -/
def initial : Publication where
  written := false
  forgotten := false

/-- The calls that are in order while an item is changed, if it is anybody's to change. -/
def Permits (target? : Option Int) (phase : Publication) : ServiceCall → Prop
  | .store (.updateItemStatus id _) => target? = some id ∧ phase.forgotten = false
  | .store (.commit _) => phase.forgotten = false
  | .store (.createItem _ _) => False
  | .store (.deleteAuction _) => False
  | _ => True

/-- Where an answer leads to. -/
def after (target? : Option Int) (phase : Publication) (call : ServiceCall)
    (answer : call.Answer) : Publication where
  written := phase.written || call.writesItem answer
  forgotten := phase.forgotten || target?.any fun id => call.forgetsItem id

/-- The contract of those who change an item, and of those who change none. -/
def contract (target? : Option Int) :
    Contract ServiceCall ServiceCall.Answer Publication where
  Permits := Permits target?
  next := after target?

/-- Whether everything has been done when somebody ends well. -/
def Concludes {α : Type} (phase : Publication) (outcome : Except Failure α) : Prop :=
  ∀ value, outcome = .ok value → phase.written = true ∧ phase.forgotten = true

theorem Concludes.failed {α : Type} (phase : Publication) (failure : Failure) :
    phase.Concludes (.error failure : Except Failure α) :=
  nofun

theorem Concludes.succeeded {α : Type} {phase : Publication} (value : α)
    (hwritten : phase.written = true) (hforgotten : phase.forgotten = true) :
    phase.Concludes (.ok value) :=
  fun _ _ => ⟨hwritten, hforgotten⟩

variable {target? : Option Int} {phase : Publication} {call : ServiceCall}

theorem after_of_writes {answer : call.Answer} (hwrites : call.writesItem answer = true) :
    phase.after target? call answer = ⟨true, phase.forgotten⟩ := by
  have hforgets : (target?.any fun id => call.forgetsItem id) = false := by
    cases call with
    | cache call => cases hwrites
    | store call => cases target? <;> rfl
  rw [after, hwrites, hforgets, Bool.or_true, Bool.or_false]

/-- A quiet call is always in order, and leads nowhere. -/
theorem of_quiet (hquiet : call.IsQuiet) : (contract target?).Permits phase call ∧
    ∀ answer, (contract target?).next phase call answer = phase := by
  cases call with
  | cache call => cases hquiet
  | store call =>
      have hwrites (answer : call.Answer) :
          ServiceCall.writesItem (.store call) answer = false := by
        cases call <;> first | rfl | cases hquiet
      have hforgets : (target?.any fun id => (ServiceCall.store call).forgetsItem id) = false := by
        cases target? <;> rfl
      refine ⟨?_, fun answer => ?_⟩
      · cases call <;> first | exact trivial | cases hquiet
      · simp only [contract, after, hwrites, hforgets, Bool.or_false]

/-- Whoever has looked up something goes on as if nothing had been done. -/
theorem fulfils_after_quiet {α β : Type} {first : Action β} {next : β → Action α}
    (hfirst : first.run.Asks ServiceCall.IsQuiet)
    (hnext : ∀ value, (next value).run.Fulfils (contract target?) Concludes .initial) :
    (first >>= next).run.Fulfils (contract target?) Concludes .initial := by
  have hstays : first.run.Fulfils (contract target?) (fun latest _ => latest = .initial) .initial :=
    .of_asks hfirst fun _ => of_quiet
  refine hstays.bind fun latest outcome hlatest => ?_
  subst hlatest
  cases outcome with
  | ok value => exact hnext value
  | error failure => exact .failed _ failure

end Publication

open Publication (contract Concludes)

namespace Command

theorem placeBid_publishes (place : PlaceBid) (now : Instant) :
    (placeBid place now).run.Fulfils (contract (some place.itemId)) Concludes .initial := by
  unfold placeBid
  cases place.validate with
  | error failure => exact .failed _ failure
  | ok =>
      refine ⟨trivial, fun begun => ?_⟩
      cases begun with
      | error failure => exact .failed _ failure
      | ok transaction =>
          refine ⟨trivial, fun marked => ?_⟩
          cases marked with
          | error failure =>
              exact ⟨trivial, fun closed => by cases closed <;> exact .failed _ failure⟩
          | ok =>
              refine ⟨trivial, fun staged => ?_⟩
              cases staged with
              | error failure =>
                  exact ⟨trivial, fun closed => by cases closed <;> exact .failed _ failure⟩
              | ok bid =>
                  refine ⟨rfl, fun committed => ?_⟩
                  cases committed with
                  | error failure => exact .failed _ failure
                  | ok =>
                      refine ⟨trivial, fun _ => .succeeded bid rfl ?_⟩
                      simp [contract, Publication.after, ServiceCall.forgetsItem]

theorem updateItemStatus_publishes (id : Int) (status : String) :
    (updateItemStatus id status).run.Fulfils (contract (some id)) Concludes .initial := by
  unfold updateItemStatus
  refine Publication.fulfils_after_quiet (.ended _) fun status => ?_
  refine Publication.fulfils_after_quiet (Action.lookup_asks _ (Action.store_asks rfl))
    fun current => ?_
  split
  next => exact .failed _ _
  next =>
    refine ⟨⟨rfl, rfl⟩, fun written => ?_⟩
    rcases written with failure | _ | item
    · exact .failed _ failure
    · refine Publication.fulfils_after_quiet (Action.lookup_asks _ (Action.store_asks rfl))
        fun found => ?_
      exact .failed _ _
    · refine ⟨trivial, fun _ => .succeeded item rfl ?_⟩
      simp [contract, Publication.after, ServiceCall.forgetsItem]

end Command

end FishMarket
