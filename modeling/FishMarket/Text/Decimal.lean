/-! # Integers in decimal

Writing an integer in decimal digits, and reading one back within the range of a machine word.
Reading takes an optional sign and then digits only; the faults are told apart because settings
report them, and of two faults the one met first from the left is reported.
-/

namespace FishMarket.Text

/-- The digit character of a number below ten. -/
def digit (n : Nat) : Char :=
  Char.ofNat (48 + n % 10)

/-- The value of a decimal digit character. -/
def digitValue? (c : Char) : Option Nat :=
  if '0' ≤ c ∧ c ≤ '9' then some (c.toNat - 48) else none

/-- Whether a character is one of the ten decimal digits. -/
def isDigit (c : Char) : Bool :=
  (digitValue? c).isSome

/-- The digits of `n` in front of `rest`. The first argument bounds the number of digits. -/
def digitsBefore : Nat → Nat → List Char → List Char
  | 0, _, rest => rest
  | bound + 1, n, rest =>
    if n < 10 then digit n :: rest
    else digitsBefore bound (n / 10) (digit n :: rest)

/-- A natural number in decimal, without leading zeros. -/
def ofNat (n : Nat) : List Char :=
  digitsBefore (n + 1) n []

/-- An integer in decimal, with a minus sign in front of a negative one. -/
def ofInt : Int → List Char
  | .ofNat n => ofNat n
  | .negSucc n => '-' :: ofNat (n + 1)

/-- A natural number in decimal with zeros in front up to the given width. -/
def padded (width n : Nat) : List Char :=
  List.replicate (width - (ofNat n).length) '0' ++ ofNat n

/-- An integer in decimal as a string. -/
def decimal (n : Int) : String :=
  String.ofList (ofInt n)

/-- The number that a list of digit characters denotes; other characters count as zero. -/
def valueOfDigits (digits : List Char) : Nat :=
  digits.foldl (fun value c => 10 * value + (digitValue? c).getD 0) 0

/-- Why a text is no integer of the wanted range. -/
inductive IntegerFault where
  | empty
  | invalidDigit
  | tooLarge
  | tooSmall
deriving DecidableEq, Repr

/-- The wording of a fault in a report on settings. -/
def IntegerFault.message : IntegerFault → String
  | .empty => "cannot parse integer from empty string"
  | .invalidDigit => "invalid digit found in string"
  | .tooLarge => "number too large to fit in target type"
  | .tooSmall => "number too small to fit in target type"

/-- Reads digits from the left onto a magnitude. A magnitude that passes `limit` is the
fault `excess`, reported before a bad digit further to the right. -/
def readMagnitude (limit : Nat) (excess : IntegerFault) : Nat → List Char → Except IntegerFault Nat
  | value, [] => .ok value
  | value, c :: rest =>
    match digitValue? c with
    | none => .error .invalidDigit
    | some d =>
      if limit < 10 * value + d then .error excess
      else readMagnitude limit excess (10 * value + d) rest

/-- Reads an integer between `lo` and `hi`, where `lo ≤ 0 ≤ hi`. A plus sign may stand in front;
a minus sign may stand in front only where negative integers are wanted; a sign alone is no
number. -/
def readInteger (lo hi : Int) : List Char → Except IntegerFault Int
  | [] => .error .empty
  | [c] => if c = '+' ∨ c = '-' then .error .invalidDigit else
      (readMagnitude hi.toNat .tooLarge 0 [c]).map Int.ofNat
  | '+' :: rest => (readMagnitude hi.toNat .tooLarge 0 rest).map Int.ofNat
  | '-' :: rest =>
    if lo < 0 then (readMagnitude lo.natAbs .tooSmall 0 rest).map fun n => -(n : Int)
    else .error .invalidDigit
  | text => (readMagnitude hi.toNat .tooLarge 0 text).map Int.ofNat

/-- The least integer of 64 bits. -/
def minInt64 : Int := -9223372036854775808

/-- The greatest integer of 64 bits. -/
def maxInt64 : Int := 9223372036854775807

/-- The least integer of 32 bits. -/
def minInt32 : Int := -2147483648

/-- The greatest integer of 32 bits. -/
def maxInt32 : Int := 2147483647

/-- Reads a signed integer of 64 bits. -/
def readInt64? (text : List Char) : Option Int :=
  (readInteger minInt64 maxInt64 text).toOption

end FishMarket.Text
