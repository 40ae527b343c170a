import FishMarket.Text.Decimal

/-! # Addresses

Where the service listens: a host and a port behind the last colon.
-/

namespace FishMarket

/-- A host and a port on it. -/
structure Address where
  host : String
  port : Nat
deriving DecidableEq, Repr

namespace Address

/-- The greatest number of a port. -/
def maxPort : Int := 65535

/-- Reads an address. Whether there is such a host is not asked. -/
def read? (text : String) : Option Address :=
  let backwards := text.toList.reverse
  let port := (backwards.takeWhile fun c => c ≠ ':').reverse
  match backwards.dropWhile fun c => c ≠ ':' with
  | [] => none
  | _ :: host =>
    match Text.readInteger 0 maxPort port with
    | .ok value => some { host := String.ofList host.reverse, port := value.toNat }
    | .error _ => none

end Address

end FishMarket
