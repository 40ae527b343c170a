import FishMarket.Proofs.Service.Plain
import FishMarket.Service.Rehearsal

/-! # Routines in the course of time

A routine is not carried out in one go. Between two of its calls others make theirs, each call may
fail instead of being made, and a routine may stop in the middle for good. The course of a routine
is what it has done so far, with the service as it found it each time, and what it still has to do.
-/

namespace FishMarket

/-- How a call is received: it is made and answered, or it fails instead. -/
inductive Reception where
  | answered
  | refused (failure : Failure)
deriving DecidableEq, Repr

namespace Service

/-- Receives a call. One that fails has no effect, except that a transaction which was to end is
gone. -/
def receive : (call : ServiceCall) → Reception → Service → call.Answer × Service
  | call, .answered, service => service.answer call
  | .store call, .refused failure, service =>
    (.error failure, { service with market := Rehearsal.refused call service.market })
  | .cache _, .refused _, service => (.error .unavailable, service)

/-- Lets time pass. -/
def wait (service : Service) (elapsed : Nat) : Service :=
  { service with moment := service.moment + elapsed }

/-- Lets the next bid be refused by the market. -/
def refuseBid (service : Service) : Service :=
  { service with market := service.market.refuseBid }

/-- Gives up some transactions, as happens to the handles of a routine that is dropped. -/
def abandon (service : Service) (transactions : List TransactionId) : Service :=
  { service with market := transactions.foldl Market.close service.market }

/-- A commit fails and closes its transaction, or it applies all writes. -/
theorem receive_commit_cases (service : Service) (transaction : TransactionId)
    (reception : Reception) :
    (∃ failure, service.receive (.store (.commit transaction)) reception =
      (.error failure, { service with market := service.market.close transaction })) ∨
    service.market.Committable transaction ∧
      service.receive (.store (.commit transaction)) reception =
        (.ok (), { service with market := service.market.committed transaction }) := by
  cases reception with
  | refused failure => exact .inl ⟨failure, rfl⟩
  | answered =>
      rcases service.market.commit_cases transaction with ⟨failure, heq⟩ | ⟨hready, heq⟩
      · refine .inl ⟨failure, ?_⟩
        simp only [receive, answer, Market.answer, heq]
      · refine .inr ⟨hready, ?_⟩
        simp only [receive, answer, Market.answer, heq]

/-- Whatever call is received makes a change to the market, or it commits a transaction. -/
theorem receive_cases (service : Service) (call : ServiceCall) (reception : Reception) :
    Market.Change service.market call.transaction? (service.receive call reception).2.market ∨
      ∃ transaction, call = .store (.commit transaction) ∧
        service.market.Committable transaction ∧
        (service.receive call reception).2.market = service.market.committed transaction := by
  by_cases hcommit : ∃ transaction, call = .store (.commit transaction)
  · obtain ⟨transaction, rfl⟩ := hcommit
    rcases service.receive_commit_cases transaction reception with ⟨failure, heq⟩ | ⟨hready, heq⟩
    · rw [heq]
      exact .inl (.closed transaction)
    · rw [heq]
      exact .inr ⟨transaction, rfl, hready, rfl⟩
  · refine .inl ?_
    cases call with
    | cache call =>
        cases reception with
        | answered => exact .nothing
        | refused failure => exact .nothing
    | store call =>
        have hcall : ∀ transaction, call ≠ .commit transaction :=
          fun transaction heq => hcommit ⟨transaction, congrArg _ heq⟩
        cases reception with
        | answered => exact service.market.answer_change call hcall
        | refused failure =>
            cases call with
            | commit transaction => exact absurd rfl (hcall transaction)
            | rollback transaction => exact .closed transaction
            | _ => exact .nothing

end Service

/-! ## What answers tell -/

/-- The transaction that an answer opens. -/
def ServiceCall.begun? : (call : ServiceCall) → call.Answer → Option TransactionId
  | .store .begin, .ok transaction => some transaction
  | _, _ => none

/-- The bid that an answer reports as staged. -/
def ServiceCall.staged? : (call : ServiceCall) → call.Answer → Option Bid
  | .store (.insertBidIn _ _ _), .ok bid => some bid
  | _, _ => none

/-- Whether an answer confirms a commit. -/
def ServiceCall.commits : (call : ServiceCall) → call.Answer → Bool
  | .store (.commit _), .ok _ => true
  | _, _ => false

/-- A call of a routine, how it was received, and the service just before. -/
structure Act where
  call : ServiceCall
  reception : Reception
  before : Service

namespace Act

/-- The answer that the routine got. -/
def answer (act : Act) : act.call.Answer :=
  (act.before.receive act.call act.reception).1

/-- The service just after. -/
def after (act : Act) : Service :=
  (act.before.receive act.call act.reception).2

/-- The transaction that an act has opened. -/
def begun? (act : Act) : Option TransactionId :=
  act.call.begun? act.answer

/-- The bid that an act has staged. -/
def staged? (act : Act) : Option Bid :=
  act.call.staged? act.answer

/-- Whether an act is a commit that succeeded. -/
def commits (act : Act) : Bool :=
  act.call.commits act.answer

end Act

/-! ## Courses -/

/-- What a routine has done so far, and what it still has to do. -/
structure Course (α : Type) where
  acts : List Act
  rest : ServiceRoutine α

namespace Course

variable {α : Type}

/-- The course of a routine that has not begun. -/
def start (routine : ServiceRoutine α) : Course α where
  acts := []
  rest := routine

/-- Lets a routine make its next call, if it has not ended. -/
def advance (course : Course α) (reception : Reception) (service : Service) :
    Course α × Service :=
  match course.rest with
  | .done _ => (course, service)
  | .ask call next =>
    let act : Act := { call, reception, before := service }
    ({ acts := course.acts ++ [act], rest := next act.answer }, act.after)

/-- What a routine has ended with. -/
def result? (course : Course α) : Option α :=
  match course.rest with
  | .done value => some value
  | .ask _ _ => none

/-- The transactions that a routine has opened. -/
def handles (course : Course α) : List TransactionId :=
  course.acts.filterMap Act.begun?

/-- The bid that a routine has staged last. -/
def staged? (course : Course α) : Option Bid :=
  (course.acts.filterMap Act.staged?).getLast?

/-- The bid that a routine has staged, if a commit of the routine has succeeded. -/
def settled? (course : Course α) : Option Bid :=
  if course.acts.any Act.commits then course.staged? else none

theorem staged?_of_settled {course : Course α} {bid : Bid}
    (hsettled : course.settled? = some bid) : course.staged? = some bid := by
  unfold settled? at hsettled
  split at hsettled
  next => exact hsettled
  next => cases hsettled

end Course

end FishMarket
