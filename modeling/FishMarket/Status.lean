/-! # Statuses

An auction is scheduled, runs, and ends completed or cancelled, for good. An item waits, is offered
and is sold. Each status has one name, which is its written form everywhere.
-/

namespace FishMarket

/-- The status of an auction. -/
inductive AuctionStatus where
  | scheduled
  | inProgress
  | completed
  | cancelled
deriving DecidableEq, Repr

namespace AuctionStatus

/-- The name of a status. -/
def name : AuctionStatus → String
  | scheduled => "scheduled"
  | inProgress => "in_progress"
  | completed => "completed"
  | cancelled => "cancelled"

/-- All statuses. -/
def all : List AuctionStatus :=
  [scheduled, inProgress, completed, cancelled]

/-- The status with the given name. -/
def ofName? (text : String) : Option AuctionStatus :=
  all.find? fun status => status.name = text

/-- Whether the auction has ended; an auction never leaves such a status. -/
def isTerminal : AuctionStatus → Bool
  | scheduled => false
  | inProgress => false
  | completed => true
  | cancelled => true

theorem ofName?_name (status : AuctionStatus) : ofName? status.name = some status := by
  cases status <;> decide

end AuctionStatus

/-- The status of an item. -/
inductive ItemStatus where
  | pending
  | available
  | sold
deriving DecidableEq, Repr

namespace ItemStatus

/-- The name of a status. -/
def name : ItemStatus → String
  | pending => "pending"
  | available => "available"
  | sold => "sold"

/-- All statuses. -/
def all : List ItemStatus :=
  [pending, available, sold]

/-- The status with the given name. -/
def ofName? (text : String) : Option ItemStatus :=
  all.find? fun status => status.name = text

/-- Whether an item may go from one status to the other outside of a settlement: what is sold
stays sold. -/
def allows (current target : ItemStatus) : Bool :=
  current ≠ sold || target = sold

theorem ofName?_name (status : ItemStatus) : ofName? status.name = some status := by
  cases status <;> decide

end ItemStatus

end FishMarket
