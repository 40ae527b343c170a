/-! # Blank characters

The characters that count as white space when a text is trimmed or when the fields of a date
are read: the `White_Space` property of Unicode. The blanks between the tokens of a JSON text
are a smaller set and are defined with the JSON reader.
-/

namespace FishMarket.Text

/-- The ranges of code points with the `White_Space` property, in increasing order. -/
def blankRanges : List (Nat × Nat) :=
  [(0x9, 0xD), (0x20, 0x20), (0x85, 0x85), (0xA0, 0xA0), (0x1680, 0x1680), (0x2000, 0x200A),
    (0x2028, 0x2029), (0x202F, 0x202F), (0x205F, 0x205F), (0x3000, 0x3000)]

/-- Whether a character is white space. -/
def isBlank (c : Char) : Bool :=
  blankRanges.any fun (first, last) => first ≤ c.toNat && c.toNat ≤ last

/-- The text without its leading blanks. -/
def dropBlanks (text : List Char) : List Char :=
  text.dropWhile isBlank

/-- The text without its leading and trailing blanks. -/
def trim (text : List Char) : List Char :=
  (dropBlanks (dropBlanks text).reverse).reverse

/-- Whether nothing is left of a text once it is trimmed. -/
def isBlankText (text : String) : Bool :=
  text.toList.all isBlank

end FishMarket.Text
