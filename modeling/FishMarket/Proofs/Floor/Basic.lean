import FishMarket.Proofs.Settlement.Course

/-! # The floor of the market

Many tasks are under way at the same time, over one market and one cache. In each move one of them
makes its next call, or a new one comes in, or one is dropped and with it the transaction that it
has open. Whoever is broken off near the end of the clock of the cache is one who is dropped.
Nothing is said about the order of the moves.
-/

namespace FishMarket

/-- Errands that may be run at the service. Each is a routine that keeps to the protocol of a
settlement, and it is known which calls it makes and how its outcome goes with the settlement. -/
class Trade (Errand : Type) where
  Outcome : Errand → Type
  routine : (errand : Errand) → ServiceRoutine (Outcome errand)
  Permits : Errand → Settlement → ServiceCall → Prop
  Concludes : (errand : Errand) → Settlement → Outcome errand → Prop
  admits : ∀ errand phase call, Permits errand phase call → Settlement.Admits phase call
  fulfils : ∀ errand, (routine errand).Fulfils (Settlement.protocol (Permits errand))
    (Concludes errand) .idle

/-- An errand that is being run. -/
structure Task (Errand : Type) [Trade Errand] where
  errand : Errand
  course : Course (Trade.Outcome errand)
  /-- Whether it was given up before its end. -/
  dropped : Bool

/-- The service, and all tasks that have come in. -/
structure Floor (Errand : Type) [Trade Errand] where
  service : Service
  tasks : List (Task Errand)

/-- What happens on the floor. -/
inductive Move (Errand : Type) where
  /-- Somebody comes with an errand. -/
  | enter (errand : Errand)
  /-- The task with this number makes its next call. -/
  | serve (task : Nat) (reception : Reception)
  /-- The task with this number is dropped. -/
  | drop (task : Nat)
  /-- The next bid is to be refused. -/
  | refuseBid
  | wait (elapsed : Nat)

variable {Errand : Type} [Trade Errand]

namespace Task

/-- A task that has just come in. -/
def start (errand : Errand) : Task Errand where
  errand := errand
  course := .start (Trade.routine errand)
  dropped := false

/-- What the errand has come to, once it has been run to its end. -/
def result? (task : Task Errand) : Option (Trade.Outcome task.errand) :=
  task.course.result?

/-- The transactions that a task has opened. -/
def handles (task : Task Errand) : List TransactionId :=
  task.course.handles

/-- The bid that a task has staged, if a commit of the task has succeeded. -/
def settled? (task : Task Errand) : Option Bid :=
  task.course.settled?

/-- Lets a task make its next call, unless it was dropped or has ended. -/
def serve (task : Task Errand) (reception : Reception) (service : Service) :
    Task Errand × Service :=
  if task.dropped then (task, service)
  else
    let (course, service) := task.course.advance reception service
    ({ task with course }, service)

/-- Drops a task that has not ended; its transactions are given up. -/
def drop (task : Task Errand) (service : Service) : Task Errand × Service :=
  if task.dropped || task.result?.isSome then (task, service)
  else ({ task with dropped := true }, service.abandon task.handles)

end Task

namespace Floor

/-- The floor before anything has happened. -/
def initial : Floor Errand where
  service := .initial
  tasks := []

/-- The floor over a service to which nobody has come yet. -/
def opened (service : Service) : Floor Errand where
  service := service
  tasks := []

/-- Lets something happen to the task with a number, if there is one. -/
def update (floor : Floor Errand) (index : Nat)
    (change : Task Errand → Service → Task Errand × Service) : Floor Errand :=
  match floor.tasks[index]? with
  | some task =>
    let (task, service) := change task floor.service
    { service, tasks := floor.tasks.set index task }
  | none => floor

/-- Makes a move. -/
def take (floor : Floor Errand) : Move Errand → Floor Errand
  | .enter errand => { floor with tasks := floor.tasks ++ [.start errand] }
  | .serve index reception => floor.update index fun task => task.serve reception
  | .drop index => floor.update index Task.drop
  | .refuseBid => { floor with service := floor.service.refuseBid }
  | .wait elapsed => { floor with service := floor.service.wait elapsed }

/-- Makes moves. -/
def play (floor : Floor Errand) (moves : List (Move Errand)) : Floor Errand :=
  moves.foldl take floor

/-- The market that is traded on. -/
def market (floor : Floor Errand) : Market :=
  floor.service.market

end Floor

end FishMarket
