import FishMarket.Json.Value
import FishMarket.Record.Datum

/-! # Records read from JSON

A record may be given as an object, with its fields in any order and other members ignored, or as
an array of its fields in order. Tokens are read from left to right and the first fault met is the
one reported: a text that is no JSON is told apart from one that is JSON of another shape.
-/

namespace FishMarket.Record

open Json

/-- The fault of finding something else where a value of some sort is wanted. A value of another
sort is a mismatch; a string or number that is no such thing is malformed. -/
def unexpected : List Token → Fault
  | .null :: _ => .mismatch
  | .bool _ :: _ => .mismatch
  | .openBrace :: _ => .mismatch
  | .openBracket :: _ => .mismatch
  | .string (some _) :: _ => .mismatch
  | .number number :: _ => if number.beyondDouble then .malformed else .mismatch
  | _ => .malformed

/-- Reads a string. -/
def readString : List Token → Except Fault (List Char × List Token)
  | .string (some content) :: rest => .ok (content, rest)
  | tokens => .error (unexpected tokens)

/-- Reads an integer of an integer kind. -/
def readInteger (kind : Kind) : List Token → Except Fault (Datum × List Token)
  | .number number :: rest =>
    match number.integer? with
    | some value =>
      match kind.ofInt? value with
      | some datum => .ok (datum, rest)
      | none => .error (unexpected (.number number :: rest))
    | none => .error (unexpected (.number number :: rest))
  | tokens => .error (unexpected tokens)

/-- Reads a value that is written as a string. -/
def readWritten (kind : Kind) (tokens : List Token) : Except Fault (Datum × List Token) := do
  let (content, rest) ← readString tokens
  match kind.ofText? content with
  | some datum => .ok (datum, rest)
  | none => .error .mismatch

/-- Reads what follows the name of a status that stands as the only member of an object: a `null`
and the closing brace. -/
def readBareMember : List Token → Except Fault (List Token)
  | .colon :: .null :: .closeBrace :: rest => .ok rest
  | .colon :: .null :: _ => .error .malformed
  | .colon :: rest => .error (unexpected rest)
  | _ => .error .malformed

/-- Reads a status: its name as a string, or an object with that name and `null`. Anything else in
its place is malformed, and so is anything else in place of the name in the object. -/
def readStatus (kind : Kind) : List Token → Except Fault (Datum × List Token)
  | .openBrace :: .string (some content) :: rest => do
    let (datum, rest) ← readWritten kind (.string (some content) :: rest)
    let rest ← readBareMember rest
    return (datum, rest)
  | .string (some content) :: rest => readWritten kind (.string (some content) :: rest)
  | _ => .error .malformed

/-- Reads a value of a kind. -/
def readValue (kind : Kind) (tokens : List Token) : Except Fault (Datum × List Token) :=
  match kind with
  | .int32 => readInteger .int32 tokens
  | .int64 => readInteger .int64 tokens
  | .auctionStatus => readStatus .auctionStatus tokens
  | .itemStatus => readStatus .itemStatus tokens
  | kind => readWritten kind tokens

/-- Reads the content of a field. -/
def readField (field : Field) (tokens : List Token) : Except Fault (Datum × List Token) :=
  match field.nullable, tokens with
  | true, .null :: rest => .ok (.null, rest)
  | _, tokens => readValue field.kind tokens

/-! ## Arrays -/

/-- Reads the elements of an array, one for each field. Fields at the end may be left out if they
have defaults; further elements are malformed. -/
def readElements (first : Bool) : List Field → List Token → Except Fault (List Datum × List Token)
  | [], .closeBracket :: rest => .ok ([], rest)
  | [], _ => .error .malformed
  | field :: fields, .closeBracket :: rest =>
    match field.default? with
    | some datum => do
      let (data, rest) ← readElements first fields (.closeBracket :: rest)
      return (datum :: data, rest)
    | none => .error .mismatch
  | field :: fields, tokens =>
    match first, tokens with
    | true, tokens => do
      let (datum, rest) ← readField field tokens
      let (data, rest) ← readElements false fields rest
      return (datum :: data, rest)
    | false, .comma :: tokens => do
      let (datum, rest) ← readField field tokens
      let (data, rest) ← readElements false fields rest
      return (datum :: data, rest)
    | false, _ => .error .malformed

/-! ## Objects -/

/-- Reads up to the key of the next member, or the end of the object. -/
def readKey (first : Bool) : List Token → Except Fault (Option (List Char) × List Token)
  | .closeBrace :: rest => .ok (none, rest)
  | .string (some key) :: rest => if first then .ok (some key, rest) else .error .malformed
  | .comma :: .string (some key) :: rest =>
    if first then .error .malformed else .ok (some key, rest)
  | _ => .error .malformed

/-- Reads the colon after a key. -/
def readColon : List Token → Except Fault (List Token)
  | .colon :: rest => .ok rest
  | _ => .error .malformed

/-- Passes over a value. -/
def skipValue (care : Value.Care) (tokens : List Token) : Except Fault (List Token) :=
  match Value.after? care tokens with
  | some rest => .ok rest
  | none => .error .malformed

/-! No step of reading leaves more tokens than it was given. -/

theorem readString_length {tokens rest : List Token} {content : List Char}
    (hread : readString tokens = .ok (content, rest)) : rest.length < tokens.length := by
  unfold readString at hread
  split at hread
  next =>
    obtain ⟨-, rfl⟩ := Prod.mk.inj (Except.ok.inj hread)
    exact Nat.lt_succ_self _
  next => cases hread

theorem readWritten_length {kind : Kind} {tokens rest : List Token} {datum : Datum}
    (hread : readWritten kind tokens = .ok (datum, rest)) : rest.length < tokens.length := by
  simp only [readWritten, bind, Except.bind] at hread
  split at hread
  next => cases hread
  next hstring =>
    split at hread
    next =>
      obtain ⟨-, rfl⟩ := Prod.mk.inj (Except.ok.inj hread)
      exact readString_length hstring
    next => cases hread

theorem readInteger_length {kind : Kind} {tokens rest : List Token} {datum : Datum}
    (hread : readInteger kind tokens = .ok (datum, rest)) : rest.length < tokens.length := by
  unfold readInteger at hread
  split at hread
  next =>
    split at hread
    next =>
      split at hread
      next =>
        obtain ⟨-, rfl⟩ := Prod.mk.inj (Except.ok.inj hread)
        exact Nat.lt_succ_self _
      next => cases hread
    next => cases hread
  next => cases hread

theorem readBareMember_length {tokens rest : List Token}
    (hread : readBareMember tokens = .ok rest) : rest.length < tokens.length := by
  unfold readBareMember at hread
  split at hread
  case h_1 =>
    obtain rfl := Except.ok.inj hread
    simp only [List.length_cons]
    omega
  all_goals cases hread

theorem readStatus_length {kind : Kind} {tokens rest : List Token} {datum : Datum}
    (hread : readStatus kind tokens = .ok (datum, rest)) : rest.length < tokens.length := by
  unfold readStatus at hread
  split at hread
  next =>
    simp only [bind, Except.bind] at hread
    split at hread
    next => cases hread
    next hwritten =>
      split at hread
      next => cases hread
      next hmember =>
        obtain ⟨-, rfl⟩ := Prod.mk.inj (Except.ok.inj hread)
        have hname := readWritten_length hwritten
        have hend := readBareMember_length hmember
        simp only [List.length_cons] at hname ⊢
        omega
  next => exact readWritten_length hread
  next => cases hread

theorem readValue_length {kind : Kind} {tokens rest : List Token} {datum : Datum}
    (hread : readValue kind tokens = .ok (datum, rest)) : rest.length < tokens.length := by
  unfold readValue at hread
  split at hread
  next => exact readInteger_length hread
  next => exact readInteger_length hread
  next => exact readStatus_length hread
  next => exact readStatus_length hread
  next => exact readWritten_length hread

theorem readField_length {field : Field} {tokens rest : List Token} {datum : Datum}
    (hread : readField field tokens = .ok (datum, rest)) : rest.length < tokens.length := by
  unfold readField at hread
  split at hread
  next =>
    obtain ⟨-, rfl⟩ := Prod.mk.inj (Except.ok.inj hread)
    exact Nat.lt_succ_self _
  next => exact readValue_length hread

theorem readKey_length {first : Bool} {tokens rest : List Token} {key? : Option (List Char)}
    (hread : readKey first tokens = .ok (key?, rest)) : rest.length < tokens.length := by
  unfold readKey at hread
  split at hread
  next =>
    obtain ⟨-, rfl⟩ := Prod.mk.inj (Except.ok.inj hread)
    exact Nat.lt_succ_self _
  next =>
    split at hread
    next =>
      obtain ⟨-, rfl⟩ := Prod.mk.inj (Except.ok.inj hread)
      exact Nat.lt_succ_self _
    next => cases hread
  next =>
    split at hread
    next => cases hread
    next =>
      obtain ⟨-, rfl⟩ := Prod.mk.inj (Except.ok.inj hread)
      simp only [List.length_cons]
      omega
  next => cases hread

theorem readColon_length {tokens rest : List Token} (hread : readColon tokens = .ok rest) :
    rest.length < tokens.length := by
  unfold readColon at hread
  split at hread
  next =>
    obtain rfl := Except.ok.inj hread
    exact Nat.lt_succ_self _
  next => cases hread

theorem skipValue_length {care : Value.Care} {tokens rest : List Token}
    (hskip : skipValue care tokens = .ok rest) : rest.length < tokens.length := by
  unfold skipValue at hskip
  split at hskip
  next hafter =>
    obtain rfl := Except.ok.inj hskip
    exact Value.run_length hafter
  next => cases hskip

/-- What an object has said about its fields so far. -/
abbrev Members : Type := List (Field × Datum)

/-- Reads the members of an object. A field that is named twice is a mismatch as soon as its
name is met again; a member that is no field is passed over. -/
def readMembers (fields : List Field) (first : Bool) (found : Members) (tokens : List Token) :
    Except Fault (Members × List Token) :=
  match _key : readKey first tokens with
  | .error fault => .error fault
  | .ok (none, rest) => .ok (found, rest)
  | .ok (some key, rest) =>
    match fields.find? fun field => field.name.toList = key with
    | none =>
      match _colon : readColon rest with
      | .error fault => .error fault
      | .ok rest =>
        match _skip : skipValue .skipped rest with
        | .error fault => .error fault
        | .ok rest => readMembers fields false found rest
    | some field =>
      if (found.lookup field).isSome then .error .mismatch
      else
        match _colon : readColon rest with
        | .error fault => .error fault
        | .ok rest =>
          match _datum : readField field rest with
          | .error fault => .error fault
          | .ok (datum, rest) => readMembers fields false ((field, datum) :: found) rest
termination_by tokens.length
decreasing_by
  all_goals
    have hkey := readKey_length _key
    have hcolon := readColon_length _colon
  next =>
    have hskip := skipValue_length _skip
    omega
  next =>
    have hdatum := readField_length _datum
    omega

/-- The datum of a field of an object: what the object says; else nothing or the default. -/
def Members.datum (found : Members) (field : Field) : Except Fault Datum :=
  match found.lookup field with
  | some datum => .ok datum
  | none =>
    if field.nullable then .ok .null
    else
      match field.default? with
      | some datum => .ok datum
      | none => .error .mismatch

/-! ## Records -/

/-- Reads the data of a record with the given fields. -/
def readRecord (fields : List Field) : List Token → Except Fault (List Datum × List Token)
  | .openBracket :: rest => readElements true fields rest
  | .openBrace :: rest => do
    let (found, rest) ← readMembers fields true [] rest
    let data ← fields.mapM found.datum
    return (data, rest)
  | tokens => .error (unexpected tokens)

/-- The record that data of the right shape stand for. -/
def ofData {α : Type} [Recorded α] (data : List Datum) : Except Fault α :=
  match Recorded.ofData? data with
  | some record => .ok record
  | none => .error .mismatch

/-- Reads a record at the front of a text and leaves alone what follows it. -/
def readFront (α : Type) [Recorded α] (text : List Char) : Except Fault α := do
  let (data, _) ← readRecord (Recorded.fields α) (Token.list text)
  ofData data

/-- Reads a record that makes up the whole text. -/
def readWhole (α : Type) [Recorded α] (text : List Char) : Except Fault α := do
  let (data, rest) ← readRecord (Recorded.fields α) (Token.list text)
  if rest.isEmpty then ofData data else .error .malformed

/-- Reads a status that makes up the whole text. -/
def readWholeStatus (kind : Kind) (text : List Char) : Except Fault Datum := do
  let (datum, rest) ← readStatus kind (Token.list text)
  if rest.isEmpty then return datum else .error .malformed

end FishMarket.Record
