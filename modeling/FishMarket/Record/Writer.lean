import FishMarket.Json.Quoted
import FishMarket.Record.Datum

/-! # Records written in JSON

A record is written as an object with all its fields in order and no blanks. Integers are written
in decimal, an absent value as `null`, and everything else as a string.
-/

namespace FishMarket

open Json (Quoted.encode)

/-- A datum in JSON. -/
def Datum.json : Datum → List Char
  | .null => "null".toList
  | .whole value => Text.ofInt value
  | datum => Quoted.encode datum.written

namespace Record

/-- Pieces with a comma between each two of them. -/
def commaSeparated : List (List Char) → List Char
  | [] => []
  | [piece] => piece
  | piece :: rest => piece ++ ',' :: commaSeparated rest

/-- A member of an object. -/
def member (name : String) (value : List Char) : List Char :=
  Quoted.encode name.toList ++ ':' :: value

/-- An object with the given members. -/
def object (members : List (String × List Char)) : List Char :=
  '\x7b' :: commaSeparated (members.map fun (name, value) => member name value) ++ ['\x7d']

/-- An array with the given elements. -/
def array (elements : List (List Char)) : List Char :=
  '[' :: commaSeparated elements ++ [']']

end Record

/-- A record in JSON. -/
def Recorded.json {α : Type} [Recorded α] (record : α) : List Char :=
  Record.object ((Recorded.fields α).zipWith (fun field datum => (field.name, datum.json))
    (Recorded.data record))

/-- Records in JSON, as an array. -/
def Recorded.jsonList {α : Type} [Recorded α] (records : List α) : List Char :=
  Record.array (records.map Recorded.json)

end FishMarket
