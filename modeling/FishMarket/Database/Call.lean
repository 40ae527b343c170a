import FishMarket.Calendar.Instant
import FishMarket.Database.Statement
import FishMarket.Failure
import FishMarket.Record.Datum
import FishMarket.Store.Call

/-! # Calls to a database

What is sent to a database server, and what it answers. A cell of an answer is a text, or nothing;
what it means follows from the field that it is read for. The server counts time in microseconds.
-/

namespace FishMarket

open Calendar

/-! ## Values on the wire -/

/-- The day from which the server counts time, 1 January 2000. -/
def serverEpoch : Date :=
  Date.ofCivil 2000 1 1

/-- Nanoseconds from midnight. A leap second counts as the second after it. -/
def nanosIntoDay (time : TimeOfDay) : Nat :=
  time.second * nanosPerSecond + time.nano

/-- A time of day as the server keeps it: cut to microseconds, and past midnight within the day. -/
def storedTime (time : TimeOfDay) : TimeOfDay :=
  (Instant.ofNanos (nanosIntoDay time / 1000 * 1000 : Nat)).time

/-- Nanoseconds from the beginning of the server's count to an instant. -/
def serverNanos (instant : Instant) : Int :=
  (instant.date.dayNumber - serverEpoch.dayNumber) * nanosPerDay + nanosIntoDay instant.time

/-- An instant as the server keeps it: cut to microseconds, towards the beginning of its count. -/
def storedInstant (instant : Instant) : Instant :=
  .ofNanos (serverEpoch.dayNumber * nanosPerDay + (serverNanos instant).tdiv 1000 * 1000)

/-- A value as the server keeps it. -/
def Datum.stored : Datum → Datum
  | .time value => .time (storedTime value)
  | .instant value => .instant (storedInstant value)
  | value => value

/-- The value of a kind with the given written form. -/
def Kind.ofCell? (kind : Kind) (cell : List Char) : Option Datum :=
  match Text.readInteger kind.range.1 kind.range.2 cell with
  | .ok value => kind.ofInt? value <|> (kind.ofText? cell).map Datum.stored
  | .error _ => (kind.ofText? cell).map Datum.stored

/-! ## Rows -/

/-- The cells of a row by the names of their columns; a column without a cell holds nothing. -/
abbrev Row : Type := List (String × Option String)

namespace Row

/-- The cell of a column. -/
def cell (row : Row) (column : String) : Option String :=
  (row.lookup column).join

/-- The content of a field. -/
def datum? (row : Row) (field : Field) : Option Datum :=
  match row.cell field.name with
  | some cell => field.kind.ofCell? cell.toList
  | none => if field.nullable then some .null else none

/-- The record that a row stands for. -/
def record? (row : Row) (α : Type) [Recorded α] : Option α := do
  let data ← (Recorded.fields α).mapM row.datum?
  Recorded.ofData? data

/-- The truth value in a column. -/
def flag? (row : Row) (column : String) : Option Bool :=
  match row.cell column with
  | some cell => if cell = "t" then some true else if cell = "f" then some false else none
  | none => none

end Row

/-! ## Calls -/

/-- An error that the server reports. -/
structure ServerError where
  /-- The class of the error in five characters. -/
  code : String
  message : String
deriving DecidableEq, Repr

/-- What a statement yields. -/
structure QueryResult where
  rows : List Row
  /-- How many rows were changed or found. -/
  affected : Nat
deriving DecidableEq, Repr

/-- A call to a database. -/
inductive DatabaseCall where
  | begin
  | commit (transaction : TransactionId)
  | rollback (transaction : TransactionId)
  /-- Rolls back a transaction that nobody asks about any more. -/
  | abandon (transaction : TransactionId)
  /-- Runs a statement, in a transaction or on its own. -/
  | run (transaction? : Option TransactionId) (statement : Database.Statement)
    (parameters : List Datum)
  /-- Asks whether the tables have been created. -/
  | hasSchema
deriving DecidableEq, Repr

/-- What a call yields when it succeeds. -/
abbrev DatabaseCall.Yield : DatabaseCall → Type
  | begin => TransactionId
  | commit _ => Unit
  | rollback _ => Unit
  | abandon _ => Unit
  | run _ _ _ => QueryResult
  | hasSchema => Bool

/-- The answer to a call. -/
abbrev DatabaseCall.Answer (call : DatabaseCall) : Type :=
  Except ServerError call.Yield

/-- The class of errors that report a reference to a row that is not there, or still needed. -/
def foreignKeyViolation : String := "23503"

/-- The failure that an error of the server leads to. -/
def Failure.ofServerError (error : ServerError) : Failure :=
  if error.code = foreignKeyViolation then .conflict (.stated error.message)
  else .internal .database

end FishMarket
