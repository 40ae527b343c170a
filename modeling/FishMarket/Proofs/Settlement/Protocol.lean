import FishMarket.Command
import FishMarket.Proofs.Service.Plain

/-! # The protocol of a settlement

Whoever settles the sale of an item opens a transaction, marks the item as sold, stages the bid on
that item and commits, in this order, and afterwards forgets what is cached of the item. At any
point before the commit the transaction may be rolled back instead. Placing a bid keeps to this
protocol whatever the answers are, and so does all work without transactions.
-/

namespace FishMarket

open Calendar

/-- How far a settlement has come. -/
inductive Settlement where
  /-- No transaction is open. -/
  | idle
  /-- Nothing is staged yet. -/
  | opened (transaction : TransactionId)
  /-- The sale of the item is staged. -/
  | marked (transaction : TransactionId) (item : Int)
  /-- The bid is staged as well. -/
  | staged (transaction : TransactionId) (bid : Bid)
  /-- The transaction has been committed. -/
  | settled (bid : Bid)
  /-- The item has been forgotten by the cache. -/
  | announced (bid : Bid)
deriving DecidableEq, Repr

namespace Settlement

/-- The transaction that is open. -/
def transaction? : Settlement → Option TransactionId
  | opened transaction => some transaction
  | marked transaction _ => some transaction
  | staged transaction _ => some transaction
  | _ => none

/-- What is staged under the transaction that is open. -/
def writes : Settlement → List StagedWrite
  | marked _ item => [.itemStatus item .sold]
  | staged _ bid => [.itemStatus bid.itemId .sold, .bid bid]
  | _ => []

/-- The bid that is staged or has been settled. -/
def bid? : Settlement → Option Bid
  | staged _ bid => some bid
  | settled bid => some bid
  | announced bid => some bid
  | _ => none

/-- The bid that has been settled. -/
def settled? : Settlement → Option Bid
  | settled bid => some bid
  | announced bid => some bid
  | _ => none

/-- Where a commit leads to. -/
def committed : Settlement → Settlement
  | staged _ bid => settled bid
  | _ => idle

/-- Where a deletion from the cache leads to. -/
def forgotten : Settlement → Settlement
  | settled bid => announced bid
  | phase => phase

/-- Where an answer leads to. -/
def after (phase : Settlement) : (call : ServiceCall) → call.Answer → Settlement
  | .store .begin, .ok transaction => opened transaction
  | .store (.setItemStatusIn transaction item _), .ok _ => marked transaction item
  | .store (.insertBidIn transaction _ _), .ok bid => staged transaction bid
  | .store (.commit _), .ok _ => phase.committed
  | .store (.commit _), .error _ => idle
  | .store (.rollback _), _ => idle
  | .cache (.delete _), _ => phase.forgotten
  | _, _ => phase

/-- The calls by which a bid is placed, each at its point of the settlement. -/
inductive Places (place : PlaceBid) (now : Instant) : Settlement → ServiceCall → Prop where
  | begin : Places place now idle (.store .begin)
  | mark (transaction : TransactionId) :
      Places place now (opened transaction)
        (.store (.setItemStatusIn transaction place.itemId .sold))
  | stage (transaction : TransactionId) :
      Places place now (marked transaction place.itemId)
        (.store (.insertBidIn transaction place now))
  | commit (transaction : TransactionId) (bid : Bid) :
      Places place now (staged transaction bid) (.store (.commit transaction))
  | rollback {phase : Settlement} (transaction : TransactionId)
      (hopen : phase.transaction? = some transaction) :
      Places place now phase (.store (.rollback transaction))
  | forget (bid : Bid) :
      Places place now (settled bid) (.cache (.delete (Cache.itemKey place.itemId)))

/-- The calls that are in order at a point of a settlement. -/
inductive Admits : Settlement → ServiceCall → Prop where
  | plain {call : ServiceCall} (hplain : call.IsPlain) : Admits idle call
  | places {phase : Settlement} {call : ServiceCall} {place : PlaceBid} {now : Instant}
      (hplaces : Places place now phase call) : Admits phase call

theorem after_plain {call : ServiceCall} (hplain : call.IsPlain) (answer : call.Answer) :
    idle.after call answer = idle := by
  cases call with
  | cache call => cases call <;> rfl
  | store call =>
      cases call
      case begin => exact absurd rfl hplain.1
      case commit | rollback | abandon | setItemStatusIn | insertBidIn => cases hplain.2
      all_goals rfl

/-- The protocol that permits some calls at each point of a settlement. -/
def protocol (permits : Settlement → ServiceCall → Prop) :
    Contract ServiceCall ServiceCall.Answer Settlement where
  Permits := permits
  next := after

/-- How a settlement has to stand when its result is reported. -/
def Concludes : Settlement → Except Failure Bid → Prop
  | announced bid, .ok placed => placed = bid
  | idle, .error _ => True
  | _, _ => False

theorem Concludes.announced {phase : Settlement} {placed : Bid}
    (hconcludes : phase.Concludes (.ok placed)) : phase = announced placed := by
  cases phase with
  | announced bid => exact congrArg _ (Eq.symm hconcludes)
  | idle | opened | marked | staged | settled => cases hconcludes

theorem Concludes.idle {phase : Settlement} {failure : Failure}
    (hconcludes : phase.Concludes (.error failure)) : phase = .idle := by
  cases phase with
  | idle => rfl
  | opened | marked | staged | settled | announced => cases hconcludes

/-- The calls of those who have nothing to do with transactions. -/
def Idles (phase : Settlement) (call : ServiceCall) : Prop :=
  phase = idle ∧ call.IsPlain

theorem Idles.admits {phase : Settlement} {call : ServiceCall} (hidles : Idles phase call) :
    Admits phase call := by
  obtain ⟨rfl, hplain⟩ := hidles
  exact .plain hplain

/-- Plain work may be done while no transaction is open. -/
theorem fulfils_of_plain {α : Type} {routine : ServiceRoutine α}
    (hplain : routine.Asks ServiceCall.IsPlain) :
    routine.Fulfils (protocol Idles) (fun phase _ => phase = idle) idle :=
  Routine.Fulfils.of_asks hplain fun _ hcall =>
    ⟨⟨rfl, hcall⟩, fun answer => after_plain hcall answer⟩

/-- Whoever is allowed less keeps to the protocol as well. -/
theorem fulfils_of_admits {α : Type} {routine : ServiceRoutine α}
    {permits : Settlement → ServiceCall → Prop} {final : Settlement → α → Prop}
    {phase : Settlement} (hfulfils : routine.Fulfils (protocol permits) final phase)
    (hadmits : ∀ phase call, permits phase call → Admits phase call) :
    routine.Fulfils (protocol Admits) final phase :=
  hfulfils.mono hadmits rfl fun _ _ => id

end Settlement

/-! ## Placing a bid -/

namespace Command

/-- Placing a bid keeps to the protocol. It ends with the bid that was committed, or with a failure
and no transaction open. -/
theorem placeBid_fulfils (place : PlaceBid) (now : Instant) :
    (placeBid place now).run.Fulfils (Settlement.protocol (Settlement.Places place now))
      Settlement.Concludes .idle := by
  unfold placeBid
  cases place.validate with
  | error failure => exact trivial
  | ok =>
      refine ⟨.begin, fun begun => ?_⟩
      cases begun with
      | error failure => exact trivial
      | ok transaction =>
          refine ⟨.mark transaction, fun marked => ?_⟩
          cases marked with
          | error failure =>
              refine ⟨.rollback transaction rfl, fun closed => ?_⟩
              cases closed <;> exact trivial
          | ok =>
              refine ⟨.stage transaction, fun staged => ?_⟩
              cases staged with
              | error failure =>
                  refine ⟨.rollback transaction rfl, fun closed => ?_⟩
                  cases closed <;> exact trivial
              | ok bid =>
                  refine ⟨.commit transaction bid, fun committed => ?_⟩
                  cases committed with
                  | error failure => exact trivial
                  | ok => exact ⟨.forget bid, fun _ => rfl⟩

end Command

end FishMarket
