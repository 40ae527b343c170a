import FishMarket.Text.Visible

/-! # Texts in quotation marks

A text that somebody sent is shown between quotation marks and on one line: marks, backslashes and
what cannot be seen are escaped.
-/

namespace FishMarket.Text

/-- The digits of a number in base sixteen, in front of `rest`. The first argument bounds their
number. -/
def hexBefore : Nat → Nat → List Char → List Char
  | 0, _, rest => rest
  | bound + 1, n, rest =>
    let digit := if n % 16 < 10 then Char.ofNat (48 + n % 16) else Char.ofNat (87 + n % 16)
    if n < 16 then digit :: rest else hexBefore bound (n / 16) (digit :: rest)

/-- A code point by its number: in base sixteen between braces. -/
def numbered (c : Char) : List Char :=
  ['\\', 'u', '\x7b'] ++ hexBefore 6 c.toNat ['\x7d']

/-- A character as it is shown between quotation marks. -/
def shown (c : Char) : List Char :=
  if c = '\x00' then ['\\', '0']
  else if c = '\t' then ['\\', 't']
  else if c = '\r' then ['\\', 'r']
  else if c = '\n' then ['\\', 'n']
  else if c = '"' ∨ c = '\\' then ['\\', c]
  else if isAttached c || isInvisible c then numbered c
  else [c]

/-- A text between quotation marks. -/
def quoted (text : List Char) : List Char :=
  '"' :: text.flatMap shown ++ ['"']

end FishMarket.Text
