import FishMarket.Record.Reader

/-! # Records inside records

A record whose fields stand among the fields of another is read in two steps. The members of the
object that belong to the outer record are read at once; the values of all others are kept, and the
inner record is made from those that bear the names of its fields.
-/

namespace FishMarket.Record

open Json

/-- A member that is kept: its key and the tokens of its value. -/
abbrev Kept : Type := List (List Char × List Token)

/-- How many brackets may be open in a text whose values are kept, with the one around it all. -/
def greatestNesting : Nat := 127

/-- What a value that is kept has to satisfy, inside the object around it. -/
def keptCare : Value.Care :=
  .kept (greatestNesting - 1)

/-- The tokens of a value, given all tokens from its beginning and those after its end. -/
def valueTokens (tokens rest : List Token) : List Token :=
  tokens.take (tokens.length - rest.length)

/-- Reads the members of an object: those of the outer record as fields, all others as tokens. -/
def readMixed (own : List Field) (first : Bool) (found : Members) (kept : Kept)
    (tokens : List Token) : Except Fault ((Members × Kept) × List Token) :=
  match _key : readKey first tokens with
  | .error fault => .error fault
  | .ok (none, rest) => .ok ((found, kept), rest)
  | .ok (some key, rest) =>
    match own.find? fun field => field.name.toList = key with
    | none =>
      match _colon : readColon rest with
      | .error fault => .error fault
      | .ok value =>
        match _skip : skipValue keptCare value with
        | .error fault => .error fault
        | .ok rest => readMixed own false found ((key, valueTokens value rest) :: kept) rest
    | some field =>
      if (found.lookup field).isSome then .error .mismatch
      else
        match _colon : readColon rest with
        | .error fault => .error fault
        | .ok rest =>
          match _datum : readField field rest with
          | .error fault => .error fault
          | .ok (datum, rest) => readMixed own false ((field, datum) :: found) kept rest
termination_by tokens.length
decreasing_by
  · have := readKey_length _key
    have := readColon_length _colon
    have := skipValue_length _skip
    omega
  · have := readKey_length _key
    have := readColon_length _colon
    have := readField_length _datum
    omega

/-- A kept status: its name as a string, or an object with that name and an empty value. -/
def keptStatus (kind : Kind) : List Token → Except Fault Datum
  | [.string (some content)] => (readWritten kind [.string (some content)]).map (·.1)
  | [.openBrace, .string (some content), .colon, .null, .closeBrace] =>
    (readWritten kind [.string (some content)]).map (·.1)
  | [.openBrace, .string (some content), .colon, .openBrace, .closeBrace, .closeBrace] =>
    (readWritten kind [.string (some content)]).map (·.1)
  | _ => .error .mismatch

/-- A kept value as the content of a field. -/
def keptDatum (field : Field) (tokens : List Token) : Except Fault Datum :=
  if field.kind = .auctionStatus ∨ field.kind = .itemStatus then keptStatus field.kind tokens
  else (readField field tokens).map (·.1)

/-- The datum of an inner field, whose name exactly one kept member has to bear. -/
def Kept.datum (kept : Kept) (field : Field) : Except Fault Datum :=
  match kept.filter fun (key, _) => key = field.name.toList with
  | [(_, tokens)] => keptDatum field tokens
  | _ => .error .mismatch

/-- Reads the data of a record, those of the inner fields first. -/
def readFlattened (inner own : List Field) : List Token → Except Fault (List Datum × List Token)
  | .openBrace :: rest => do
    let ((found, kept), rest) ← readMixed own true [] [] rest
    let innerData ← inner.mapM kept.datum
    let ownData ← own.mapM found.datum
    return (innerData ++ ownData, rest)
  | tokens => .error (unexpected tokens)

end FishMarket.Record
