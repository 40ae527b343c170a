import FishMarket.Database.Call

/-! # A database that follows a script

A server that answers statements with replies prepared beforehand, in order, and with no rows when
they have run out. The statements that begin and end transactions need no reply, but each of them
can be made to fail. Everything that is sent is written down.
-/

namespace FishMarket.Database

/-- What is written down about a statement. -/
structure Sent where
  text : String
  parameters : List Datum
  /-- Whether a transaction was open on its connection when the statement arrived. -/
  inTransaction : Bool
deriving DecidableEq, Repr

/-- A prepared reply. -/
abbrev Prepared : Type := Except ServerError QueryResult

/-- The errors with which the statements around transactions are answered. -/
structure Failing where
  begin? : Option ServerError
  commit? : Option ServerError
  rollback? : Option ServerError
deriving DecidableEq, Repr

/-- The errors of a server where nothing fails. -/
def Failing.nothing : Failing :=
  ⟨none, none, none⟩

/-- A server with its script. -/
structure Script where
  replies : List Prepared
  failing : Failing
  /-- What has been sent, the latest first. -/
  sent : List Sent
  /-- The transactions that are open. -/
  active : List TransactionId
  lastTransaction : TransactionId
  /-- The transactions in which the tables have been created. -/
  creating : List TransactionId
  /-- Whether the tables are there. -/
  hasSchema : Bool

namespace Script

/-- A server that has no tables and no replies prepared. -/
def initial : Script where
  replies := []
  failing := .nothing
  sent := []
  active := []
  lastTransaction := 0
  creating := []
  hasSchema := false

/-- The server with other replies and errors, and nothing written down. -/
def prepare (script : Script) (replies : List Prepared) (failing : Failing) : Script :=
  { script with replies := replies, failing := failing, sent := [] }

/-- What has been sent, in order. -/
def log (script : Script) : List Sent :=
  script.sent.reverse

/-- Writes down a statement that begins or ends a transaction. -/
def noteControl (script : Script) (text : String) (inTransaction : Bool) : Script :=
  { script with sent := ⟨text, [], inTransaction⟩ :: script.sent }

/-- Ends a transaction on its connection. -/
def close (script : Script) (transaction : TransactionId) : Script :=
  { script with
    active := script.active.filter fun other => other ≠ transaction
    creating := script.creating.filter fun other => other ≠ transaction }

/-- Success, or the given error. -/
def outcome (error? : Option ServerError) : Except ServerError Unit :=
  match error? with
  | none => .ok ()
  | some error => .error error

/-- Rolls a transaction back. -/
def rollback (script : Script) (transaction : TransactionId) :
    Except ServerError Unit × Script :=
  (outcome script.failing.rollback?,
    (script.noteControl "ROLLBACK" (script.active.contains transaction)).close transaction)

/-- The reply to a statement and what is left of the script. -/
def takeReply (script : Script) : Prepared × Script :=
  match script.replies with
  | [] => (.ok ⟨[], 0⟩, script)
  | reply :: rest => (reply, { script with replies := rest })

/-- Whether a statement runs in a transaction that is open. -/
def isActive (script : Script) : Option TransactionId → Bool
  | some transaction => script.active.contains transaction
  | none => false

/-- Remembers the transactions in which the tables have been created. -/
def noteSchema (script : Script) (transaction? : Option TransactionId) (statement : Statement)
    (reply : Prepared) : Script :=
  match transaction?, statement, reply with
  | some transaction, .createSchema, .ok _ =>
    { script with creating := transaction :: script.creating }
  | _, _, _ => script

/-- Answers a call. -/
def answer : (call : DatabaseCall) → Script → call.Answer × Script
  | .begin, script =>
    let noted := script.noteControl "BEGIN" false
    match script.failing.begin? with
    | some error => (.error error, noted)
    | none =>
      let transaction := script.lastTransaction + 1
      (.ok transaction, { noted with
        active := transaction :: noted.active
        lastTransaction := transaction })
  | .commit transaction, script =>
    let noted := script.noteControl "COMMIT" (script.active.contains transaction)
    let created := script.creating.contains transaction && script.failing.commit?.isNone
    (outcome script.failing.commit?,
      { noted.close transaction with hasSchema := script.hasSchema || created })
  | .rollback transaction, script => script.rollback transaction
  | .abandon transaction, script => script.rollback transaction
  | .run transaction? statement parameters, script =>
    let sent : Sent := ⟨statement.text, parameters, script.isActive transaction?⟩
    let (reply, script) := takeReply { script with sent := sent :: script.sent }
    (reply, script.noteSchema transaction? statement reply)
  | .hasSchema, script => (.ok script.hasSchema, script)

end Script

end FishMarket.Database
