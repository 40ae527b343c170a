import FishMarket.Service.Action

/-! # Transactions under names

Open transactions that are kept by name, as somebody does who works on the store by hand. A name is
free again as soon as its transaction is to end, whether or not that succeeds.
-/

namespace FishMarket

/-- The open transactions and their names. -/
abbrev Handles : Type := List (String × TransactionId)

namespace Handles

/-- The handles without the one of the given name. -/
def without (handles : Handles) (name : String) : Handles :=
  handles.filter fun handle => handle.1 ≠ name

/-- Opens a transaction under a name. An open one of that name is given up, but only once the new
one is there. -/
def begin (handles : Handles) (name : String) : Action Handles := do
  let transaction ← Action.store .begin
  match handles.lookup name with
  | some former => Action.store (.abandon former)
  | none => pure ()
  return (name, transaction) :: handles.without name

end Handles

end FishMarket
