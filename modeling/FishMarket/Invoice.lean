import FishMarket.Failure
import FishMarket.Record.Datum

/-! # Invoices

A buyer is charged the sum of the prices of all bids, with tax. Amounts are whole numbers of 64
bits; one that does not fit is refused and not cut off.
-/

namespace FishMarket

/-- The tax in percent. -/
def taxRatePercent : Int := 8

/-- The sum of the prices of a buyer's bids, before tax. -/
structure BuyerTotal where
  buyerId : Int
  buyerName : String
  totalPrice : Int
deriving DecidableEq, Repr, Inhabited

instance : Recorded BuyerTotal where
  fields := [.required "buyer_id" .int64, .required "buyer_name" .text,
    .required "total_price" .int64]
  data total := [.whole total.buyerId, .text total.buyerName, .whole total.totalPrice]
  ofData?
    | [.whole buyerId, .text buyerName, .whole totalPrice] =>
      some { buyerId, buyerName, totalPrice }
    | _ => none

/-- What a buyer is charged. -/
structure InvoiceLine where
  buyerId : Int
  buyerName : String
  totalAmount : Int
deriving DecidableEq, Repr, Inhabited

instance : Recorded InvoiceLine where
  fields := [.required "buyer_id" .int64, .required "buyer_name" .text,
    .required "total_amount" .int64]
  data line := [.whole line.buyerId, .text line.buyerName, .whole line.totalAmount]
  ofData?
    | [.whole buyerId, .text buyerName, .whole totalAmount] =>
      some { buyerId, buyerName, totalAmount }
    | _ => none

/-- An amount with tax, rounded down. -/
def withTax (total : Int) : Except Failure Int :=
  let taxed := (total * (100 + taxRatePercent)).fdiv 100
  if Text.minInt64 ≤ taxed ∧ taxed ≤ Text.maxInt64 then .ok taxed
  else .error (.internal (.taxedTooLarge total))

/-- The line of an invoice for a total. -/
def InvoiceLine.ofTotal (total : BuyerTotal) : Except Failure InvoiceLine := do
  let totalAmount ← withTax total.totalPrice
  return { buyerId := total.buyerId, buyerName := total.buyerName, totalAmount }

end FishMarket
