import FishMarket.Text.Decimal

/-! # Numbers in JSON

A number as it stands in a text: a sign, whole digits, a fraction and an exponent. Every number the
market stores is an integer, so a number is either an integer of some range or it is refused; what
matters beside that is whether it is too large to be a number of double precision at all, which is
a fault of the text and not of its meaning.
-/

namespace FishMarket.Json

open Text

/-- A number as written. -/
structure Number where
  /-- Whether a minus sign stands in front. -/
  negative : Bool
  /-- The digits in front of the point. -/
  whole : List Char
  /-- The digits after the point, none if there is no point. -/
  fraction : List Char
  /-- The exponent, if one is written. -/
  exponent? : Option Int
deriving DecidableEq, Repr

namespace Number

/-- Digits as many as there are, at least one. -/
def scanDigits? (text : List Char) : Option (List Char × List Char) :=
  let digits := text.takeWhile isDigit
  if digits.isEmpty then none else some (digits, text.dropWhile isDigit)

/-- The digits after a point, none if no point follows. -/
def scanFraction? : List Char → Option (List Char × List Char)
  | '.' :: rest => scanDigits? rest
  | text => some ([], text)

/-- The digits of an exponent after its sign. -/
def scanPower? (negative : Bool) (text : List Char) : Option (Option Int × List Char) :=
  (scanDigits? text).map fun (digits, rest) =>
    (some (if negative then -(valueOfDigits digits : Int) else valueOfDigits digits), rest)

/-- The exponent, if a letter E follows. -/
def scanExponent? : List Char → Option (Option Int × List Char)
  | [] => some (none, [])
  | c :: rest =>
    if c = 'e' ∨ c = 'E' then
      match rest with
      | '+' :: rest => scanPower? false rest
      | '-' :: rest => scanPower? true rest
      | rest => scanPower? false rest
    else some (none, c :: rest)

/-- A number without its sign. Zero may not stand in front of another digit. -/
def scanUnsigned? (negative : Bool) (text : List Char) : Option (Number × List Char) := do
  let (whole, text) ← scanDigits? text
  if whole.head? = some '0' ∧ 1 < whole.length then none
  let (fraction, text) ← scanFraction? text
  let (exponent?, text) ← scanExponent? text
  return ({ negative, whole, fraction, exponent? }, text)

/-- The integer that a number denotes, if it is written as one. A zero with a minus sign is no
integer: it is the negative zero of floating point. -/
def integer? (number : Number) : Option Int :=
  if number.fraction.isEmpty ∧ number.exponent? = none then
    let value := valueOfDigits number.whole
    if number.negative then (if value = 0 then none else some (-(value : Int)))
    else some value
  else none

/-! ## Size

The size of a number is judged on its leading digits, as many as fit into 64 bits, scaled by a power
of ten; both factors and their product are rounded to double precision.
-/

/-- Adds digits to a significand as long as it stays below 2^64, and says which are left. -/
def gather (significand : Nat) : List Char → Nat × List Char
  | [] => (significand, [])
  | c :: rest =>
    let next := 10 * significand + (digitValue? c).getD 0
    if next < Nat.pow 2 64 then gather next rest else (significand, c :: rest)

/-- The nearest integer whose binary form has 53 significant bits; of two, the even one. -/
def roundToDouble (n : Nat) : Nat :=
  if n < Nat.pow 2 53 then n
  else
    let unit := Nat.pow 2 (n.log2 - 52)
    let quotient := n / unit
    let twice := 2 * (n % unit)
    let roundUp := unit < twice ∨ (unit = twice ∧ quotient % 2 = 1)
    (if roundUp then quotient + 1 else quotient) * unit

/-- From here upward an exact product rounds to infinity. -/
def doubleLimit : Nat := Nat.pow 2 1024 - Nat.pow 2 970

/-- The greatest power of ten of double precision. -/
def greatestPower : Int := 308

/-- Whether a number is too large for double precision. -/
def beyondDouble (number : Number) : Bool :=
  let (leading, dropped) := gather 0 number.whole
  let (significand, ignored) := gather leading number.fraction
  let power : Int :=
    dropped.length - (number.fraction.length - ignored.length) + number.exponent?.getD 0
  if significand = 0 ∨ power < 0 then false
  else if greatestPower < power then true
  else doubleLimit ≤ roundToDouble significand * roundToDouble (Nat.pow 10 power.toNat)

end Number

end FishMarket.Json
