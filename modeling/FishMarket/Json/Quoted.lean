import FishMarket.Text.Decimal

/-! # Strings in JSON

Writing a string between quotation marks and reading one back. Reading is in two steps. The first
finds the closing mark and refuses control characters and unknown escapes; what it yields are plain
characters and the sixteen-bit units of `\u` escapes. The second joins units into characters, and
fails on half of a surrogate pair. A value that is skipped needs only the first.
-/

namespace FishMarket.Json

namespace Quoted

/-! ## Writing -/

/-- A hexadecimal digit in lower case. -/
def hexDigit (n : Nat) : Char :=
  if n < 10 then Char.ofNat (48 + n) else Char.ofNat (87 + n)

/-- The written form of one character: marks, backslashes and control characters are escaped. -/
def escape (c : Char) : List Char :=
  if c = '"' then ['\\', '"']
  else if c = '\\' then ['\\', '\\']
  else if c = '\n' then ['\\', 'n']
  else if c = '\r' then ['\\', 'r']
  else if c = '\t' then ['\\', 't']
  else if c.toNat = 8 then ['\\', 'b']
  else if c.toNat = 12 then ['\\', 'f']
  else if c.toNat < 32 then
    ['\\', 'u', '0', '0', hexDigit (c.toNat / 16), hexDigit (c.toNat % 16)]
  else [c]

/-- A text between quotation marks. -/
def encode (text : List Char) : List Char :=
  '"' :: text.flatMap escape ++ ['"']

/-! ## Reading -/

/-- A part of a string: a character that stands for itself, or a unit of sixteen bits. -/
inductive Piece where
  | plain (c : Char)
  | unit (code : Nat)
deriving DecidableEq, Repr

/-- The value of a hexadecimal digit in either case. -/
def hexValue? (c : Char) : Option Nat :=
  if '0' ≤ c ∧ c ≤ '9' then some (c.toNat - 48)
  else if 'a' ≤ c ∧ c ≤ 'f' then some (c.toNat - 87)
  else if 'A' ≤ c ∧ c ≤ 'F' then some (c.toNat - 55)
  else none

/-- The unit written with four hexadecimal digits. -/
def unit? (a b c d : Char) : Option Nat := do
  let a ← hexValue? a
  let b ← hexValue? b
  let c ← hexValue? c
  let d ← hexValue? d
  return ((a * 16 + b) * 16 + c) * 16 + d

/-- The character that a one-letter escape stands for. -/
def escaped? (c : Char) : Option Char :=
  if c = '"' ∨ c = '\\' ∨ c = '/' then some c
  else if c = 'b' then some (Char.ofNat 8)
  else if c = 'f' then some (Char.ofNat 12)
  else if c = 'n' then some '\n'
  else if c = 'r' then some '\r'
  else if c = 't' then some '\t'
  else none

/-- The pieces up to the closing mark, put in front of the ones already seen in reverse order, and
the text after the mark. -/
def scanOnto (seen : List Piece) : List Char → Option (List Piece × List Char)
  | [] => none
  | '"' :: rest => some (seen.reverse, rest)
  | '\\' :: 'u' :: a :: b :: c :: d :: rest =>
    match unit? a b c d with
    | some code => scanOnto (.unit code :: seen) rest
    | none => none
  | '\\' :: c :: rest =>
    match escaped? c with
    | some c => scanOnto (.plain c :: seen) rest
    | none => none
  | c :: rest => if c = '\\' ∨ c.toNat < 32 then none else scanOnto (.plain c :: seen) rest

/-- The pieces of a string whose opening mark has been read, and the text after it. -/
def scan? (text : List Char) : Option (List Piece × List Char) :=
  scanOnto [] text

/-- Whether a unit is the first half of a surrogate pair. -/
def isHigh (code : Nat) : Bool :=
  0xD800 ≤ code && code < 0xDC00

/-- Whether a unit is the second half of a surrogate pair. -/
def isLow (code : Nat) : Bool :=
  0xDC00 ≤ code && code < 0xE000

/-- The character of a surrogate pair. -/
def ofPair (high low : Nat) : Char :=
  Char.ofNat (0x10000 + (high - 0xD800) * 0x400 + (low - 0xDC00))

/-- Joins pieces to characters behind the ones already seen in reverse order. -/
def joinOnto (seen : List Char) : List Piece → Option (List Char)
  | [] => some seen.reverse
  | .plain c :: rest => joinOnto (c :: seen) rest
  | .unit high :: .unit low :: rest =>
    if isHigh high then
      if isLow low then joinOnto (ofPair high low :: seen) rest else none
    else if isLow high then none
    else joinOnto (Char.ofNat high :: seen) (.unit low :: rest)
  | .unit code :: rest =>
    if isHigh code || isLow code then none else joinOnto (Char.ofNat code :: seen) rest

/-- The characters of a string, if every surrogate is half of a pair. -/
def join? (pieces : List Piece) : Option (List Char) :=
  joinOnto [] pieces

end Quoted

end FishMarket.Json
