import FishMarket.Calendar.Reading
import FishMarket.Status

/-! # Records as rows of data

What the market stores and sends consists of records with named fields. A record type says once
which fields it has and in which order; the JSON form, the rows of a database and the parameters of
its statements all follow from that list.
-/

namespace FishMarket

open Calendar

/-- The sorts of values that fields hold. -/
inductive Kind where
  /-- An integer of 32 bits. -/
  | int32
  /-- An integer of 64 bits. -/
  | int64
  | text
  | date
  | time
  | instant
  | auctionStatus
  | itemStatus
deriving DecidableEq, Repr

/-- The content of a field. -/
inductive Datum where
  /-- The absence of a value. -/
  | null
  | whole (value : Int)
  | text (value : String)
  | date (value : Date)
  | time (value : TimeOfDay)
  | instant (value : Instant)
  | auctionStatus (value : AuctionStatus)
  | itemStatus (value : ItemStatus)
deriving DecidableEq, Repr

namespace Kind

/-- The least and the greatest integer of an integer kind. -/
def range : Kind → Int × Int
  | int32 => (Text.minInt32, Text.maxInt32)
  | _ => (Text.minInt64, Text.maxInt64)

/-- The integer as a value of an integer kind, if it lies in the range of the kind. -/
def ofInt? (kind : Kind) (value : Int) : Option Datum :=
  if kind = int32 ∨ kind = int64 then
    if kind.range.1 ≤ value ∧ value ≤ kind.range.2 then some (.whole value) else none
  else none

/-- The value of a kind with the given written form; integers are not written as texts. -/
def ofText? (kind : Kind) (written : List Char) : Option Datum :=
  match kind with
  | int32 => none
  | int64 => none
  | text => some (.text (String.ofList written))
  | date => (Date.read? written).map .date
  | time => (TimeOfDay.read? written).map .time
  | instant => (Instant.read? written).map .instant
  | auctionStatus => (AuctionStatus.ofName? (String.ofList written)).map .auctionStatus
  | itemStatus => (ItemStatus.ofName? (String.ofList written)).map .itemStatus

end Kind

/-- A field of a record. -/
structure Field where
  name : String
  kind : Kind
  /-- Whether the value may be absent. -/
  nullable : Bool
  /-- The value taken where the field is left out. -/
  default? : Option Datum
deriving DecidableEq, Repr

namespace Field

/-- A field that always holds a value. -/
def required (name : String) (kind : Kind) : Field :=
  ⟨name, kind, false, none⟩

/-- A field whose value may be absent. -/
def optional (name : String) (kind : Kind) : Field :=
  ⟨name, kind, true, none⟩

/-- A field that takes a default where it is left out. -/
def defaulted (name : String) (kind : Kind) (value : Datum) : Field :=
  ⟨name, kind, false, some value⟩

end Field

/-- A record type: its fields in order, and its values as one datum for each field. -/
class Recorded (α : Type) where
  fields : List Field
  data : α → List Datum
  ofData? : List Datum → Option α

namespace Datum

/-- A value that may be absent. -/
def ofOption {α : Type} (datum : α → Datum) : Option α → Datum
  | none => null
  | some value => datum value

/-- Reads a time of day that may be absent. -/
def time? : Datum → Option (Option TimeOfDay)
  | null => some none
  | time value => some (some value)
  | _ => none

/-- Reads an instant that may be absent. -/
def instant? : Datum → Option (Option Instant)
  | null => some none
  | instant value => some (some value)
  | _ => none

/-- Reads an integer that may be absent. -/
def whole? : Datum → Option (Option Int)
  | null => some none
  | whole value => some (some value)
  | _ => none

/-- Reads an auction status that may be absent. -/
def auctionStatus? : Datum → Option (Option AuctionStatus)
  | null => some none
  | auctionStatus value => some (some value)
  | _ => none

/-- Reads an item status that may be absent. -/
def itemStatus? : Datum → Option (Option ItemStatus)
  | null => some none
  | itemStatus value => some (some value)
  | _ => none

/-- The written form of a value that is not an integer; nothing for an absent one. -/
def written : Datum → List Char
  | null => []
  | whole value => Text.ofInt value
  | text value => value.toList
  | date value => value.text
  | time value => value.text
  | instant value => value.text
  | auctionStatus value => value.name.toList
  | itemStatus value => value.name.toList

end Datum

end FishMarket
