import FishMarket.Text.Decimal
import FishMarket.Text.Quoted

/-! # Ids in paths

A segment of a path may hold bytes as percent signs with two hexadecimal digits. The bytes have to
be UTF-8 and the text an integer; if not, the request is refused in plain words.
-/

namespace FishMarket.Http.Path

open Text

/-- Why a segment is no id. -/
inductive IdFault where
  | notText
  | notInteger (text : List Char)
deriving DecidableEq, Repr

/-- The wording of a fault. -/
def IdFault.message : IdFault → String
  | notText => "Invalid URL: Invalid UTF-8 in `id`"
  | notInteger text =>
    "Invalid URL: Cannot parse `" ++ String.ofList (quoted text) ++ "` to a `i64`"

/-- The value of a hexadecimal digit. -/
def hexValue? (c : Char) : Option Nat :=
  if '0' ≤ c ∧ c ≤ '9' then some (c.toNat - 48)
  else if 'a' ≤ c ∧ c ≤ 'f' then some (c.toNat - 87)
  else if 'A' ≤ c ∧ c ≤ 'F' then some (c.toNat - 55)
  else none

/-- The byte written with two hexadecimal digits. -/
def byte? (high low : Char) : Option UInt8 := do
  let high ← hexValue? high
  let low ← hexValue? low
  return UInt8.ofNat (16 * high + low)

/-- The bytes of a character. -/
def bytesOf (c : Char) : List UInt8 :=
  (String.singleton c).toUTF8.toList

/-- The bytes of a segment. A percent sign without two digits after it stands for itself. -/
def decode : List Char → List UInt8
  | [] => []
  | '%' :: high :: low :: rest =>
    match byte? high low with
    | some byte => byte :: decode rest
    | none => bytesOf '%' ++ decode (high :: low :: rest)
  | c :: rest => bytesOf c ++ decode rest

/-- The id that a segment holds. -/
def id (segment : List Char) : Except IdFault Int :=
  match String.fromUTF8? ⟨(decode segment).toArray⟩ with
  | none => .error .notText
  | some text =>
    match readInt64? text.toList with
    | some id => .ok id
    | none => .error (.notInteger text.toList)

/-- The parts of a path between slashes. -/
def segments (path : List Char) : List (List Char) :=
  path.foldr (fun c parts =>
    match c, parts with
    | '/', parts => [] :: parts
    | c, part :: parts => (c :: part) :: parts
    | c, [] => [[c]]) [[]]

end FishMarket.Http.Path
