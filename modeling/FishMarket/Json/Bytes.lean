/-! # Bytes of JSON

JSON arrives as bytes in UTF-8. Bytes that are part of no character make a string unreadable, but do
no harm in one that is skipped, and anywhere else they are no token. Halves of surrogate pairs are
just like that, so their escapes take the place of such bytes.
-/

namespace FishMarket.Json.Bytes

/-- What takes the place of a byte that is part of no character: two second halves, of which at
least one is left over, whatever stands before and after them. Behind a backslash such a byte cannot
even be skipped, so there it is a character that cannot be escaped. -/
def stray (escaped : Bool) : List Char :=
  if escaped then ['\x00'] else "\\udc80\\udc80".toList

/-- The characters from a position onward, behind the ones already seen in reverse order, given
whether a backslash escapes what stands at the position. -/
def charactersOnto (bytes : ByteArray) (seen : List Char) (position : Nat) (escaped : Bool) :
    List Char :=
  if position < bytes.size then
    match bytes.utf8DecodeChar? position with
    | some c => charactersOnto bytes (c :: seen) (position + c.utf8Size) (!escaped && c = '\\')
    | none => charactersOnto bytes ((stray escaped).reverse ++ seen) (position + 1) false
  else seen.reverse
termination_by bytes.size - position
decreasing_by
  · have := c.utf8Size_pos
    omega
  · omega

/-- The characters of JSON. -/
def characters (bytes : ByteArray) : List Char :=
  charactersOnto bytes [] 0 false

/-- What follows some characters is made up of the characters that do. -/
theorem charactersOnto_utf8Encode (before rest seen : List Char) (escaped : Bool) :
    charactersOnto (before ++ rest).utf8Encode seen before.utf8Encode.size escaped =
      seen.reverse ++ rest := by
  induction rest generalizing before seen escaped with
  | nil =>
      rw [charactersOnto, List.append_nil, if_neg (Nat.lt_irrefl _), List.append_nil]
  | cons c rest ih =>
      have hsplit : (before ++ c :: rest).utf8Encode =
          before.utf8Encode ++ (c :: rest).utf8Encode := List.utf8Encode_append
      have hdecode : (before ++ c :: rest).utf8Encode.utf8DecodeChar? before.utf8Encode.size =
          some c := by
        rw [ByteArray.utf8DecodeChar?_eq_utf8DecodeChar?_extract, hsplit,
          ByteArray.extract_append_eq_right rfl ByteArray.size_append,
          List.utf8DecodeChar?_utf8Encode_cons]
      have hnext : (before ++ [c]).utf8Encode.size = before.utf8Encode.size + c.utf8Size := by
        rw [List.utf8Encode_append, ByteArray.size_append, List.utf8Encode_singleton,
          List.size_toByteArray, String.length_utf8EncodeChar]
      have hmore : before.utf8Encode.size < (before ++ c :: rest).utf8Encode.size := by
        have hpositive := c.utf8Size_pos
        have hrest : (before ++ c :: rest).utf8Encode.size =
            (before ++ [c]).utf8Encode.size + rest.utf8Encode.size := by
          rw [← ByteArray.size_append, ← List.utf8Encode_append, List.append_assoc]
          rfl
        omega
      rw [charactersOnto, if_pos hmore, hdecode]
      dsimp only
      rw [← hnext, List.append_cons, ih, List.reverse_cons, List.append_assoc]
      rfl

/-- The characters of a text in UTF-8 are those of the text. -/
theorem characters_toUTF8 (text : String) : characters text.toUTF8 = text.toList := by
  have hcharacters := charactersOnto_utf8Encode [] text.toList [] false
  rwa [List.nil_append, String.utf8Encode_toList] at hcharacters

end FishMarket.Json.Bytes
