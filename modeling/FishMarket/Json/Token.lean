import FishMarket.Json.Number
import FishMarket.Json.Quoted

/-! # Tokens of JSON

A text is cut into tokens from left to right. Where that is impossible the list ends with
`Token.malformed`, so that a reader that never gets there never notices. Blanks between tokens are
the space, the tab, the line feed and the carriage return.
-/

namespace FishMarket.Json

/-- A token. -/
inductive Token where
  | openBrace
  | closeBrace
  | openBracket
  | closeBracket
  | colon
  | comma
  | null
  | bool (value : Bool)
  | number (value : Number)
  /-- A string; without its characters if they hold half of a surrogate pair. -/
  | string (content? : Option (List Char))
  /-- Text that is no token. -/
  | malformed
deriving DecidableEq, Repr

namespace Token

/-- Whether a character may stand between tokens. -/
def isSpace (c : Char) : Bool :=
  c = ' ' || c = '\t' || c = '\n' || c = '\r'

/-- The first token of a text that does not begin with a blank, and the text after it. -/
def first? : List Char → Option (Token × List Char)
  | '\x7b' :: rest => some (.openBrace, rest)
  | '\x7d' :: rest => some (.closeBrace, rest)
  | '[' :: rest => some (.openBracket, rest)
  | ']' :: rest => some (.closeBracket, rest)
  | ':' :: rest => some (.colon, rest)
  | ',' :: rest => some (.comma, rest)
  | 'n' :: 'u' :: 'l' :: 'l' :: rest => some (.null, rest)
  | 't' :: 'r' :: 'u' :: 'e' :: rest => some (.bool true, rest)
  | 'f' :: 'a' :: 'l' :: 's' :: 'e' :: rest => some (.bool false, rest)
  | '"' :: rest =>
    (Quoted.scan? rest).map fun (pieces, rest) => (.string (Quoted.join? pieces), rest)
  | '-' :: rest => (Number.scanUnsigned? true rest).map fun (value, rest) => (.number value, rest)
  | text => (Number.scanUnsigned? false text).map fun (value, rest) => (.number value, rest)

/-! Each step of cutting takes at least one character off the text. -/

theorem dropWhile_length_le {α : Type} (p : α → Bool) (text : List α) :
    (text.dropWhile p).length ≤ text.length :=
  (List.dropWhile_sublist p).length_le

theorem scanDigits?_length {text digits rest : List Char}
    (hscan : Number.scanDigits? text = some (digits, rest)) : rest.length < text.length := by
  simp only [Number.scanDigits?] at hscan
  split at hscan
  next => cases hscan
  next hsome =>
    obtain ⟨-, rfl⟩ := Prod.mk.inj (Option.some.inj hscan)
    have hwhole := congrArg List.length
      (List.takeWhile_append_dropWhile (p := Text.isDigit) (l := text))
    have hpositive : 0 < (text.takeWhile Text.isDigit).length :=
      List.length_pos_iff.mpr (by simpa using hsome)
    rw [List.length_append] at hwhole
    omega

theorem scanFraction?_length {text digits rest : List Char}
    (hscan : Number.scanFraction? text = some (digits, rest)) : rest.length ≤ text.length := by
  unfold Number.scanFraction? at hscan
  split at hscan
  next => exact Nat.le_succ_of_le (Nat.le_of_lt (scanDigits?_length hscan))
  next =>
    obtain ⟨-, rfl⟩ := Prod.mk.inj (Option.some.inj hscan)
    exact Nat.le_refl _

theorem scanPower?_length {negative : Bool} {text rest : List Char} {power? : Option Int}
    (hscan : Number.scanPower? negative text = some (power?, rest)) :
    rest.length < text.length := by
  obtain ⟨⟨digits, left⟩, hdigits, heq⟩ := Option.map_eq_some_iff.mp hscan
  obtain ⟨-, rfl⟩ := Prod.mk.inj heq
  exact scanDigits?_length hdigits

theorem scanExponent?_length {text rest : List Char} {power? : Option Int}
    (hscan : Number.scanExponent? text = some (power?, rest)) : rest.length ≤ text.length := by
  unfold Number.scanExponent? at hscan
  split at hscan
  next =>
    obtain ⟨-, rfl⟩ := Prod.mk.inj (Option.some.inj hscan)
    exact Nat.le_refl _
  next =>
    split at hscan
    next =>
      split at hscan
      all_goals
        have hpower := scanPower?_length hscan
        simp only [List.length_cons] at hpower ⊢
        omega
    next =>
      obtain ⟨-, rfl⟩ := Prod.mk.inj (Option.some.inj hscan)
      exact Nat.le_refl _

theorem scanUnsigned?_length {negative : Bool} {text rest : List Char} {number : Number}
    (hscan : Number.scanUnsigned? negative text = some (number, rest)) :
    rest.length < text.length := by
  simp only [Number.scanUnsigned?, Option.bind_eq_bind, Option.bind_eq_some_iff] at hscan
  obtain ⟨⟨whole, afterWhole⟩, hwhole, hscan⟩ := hscan
  split at hscan
  next => cases hscan
  next =>
    simp only [Option.bind_eq_some_iff] at hscan
    obtain ⟨⟨fraction, afterFraction⟩, hfraction, ⟨power?, afterPower⟩, hpower, heq⟩ := hscan
    obtain ⟨-, rfl⟩ := Prod.mk.inj (Option.some.inj heq)
    calc afterPower.length
      _ ≤ afterFraction.length := scanExponent?_length hpower
      _ ≤ afterWhole.length := scanFraction?_length hfraction
      _ < text.length := scanDigits?_length hwhole

theorem scanOnto_length {seen pieces : List Quoted.Piece} {text rest : List Char}
    (hscan : Quoted.scanOnto seen text = some (pieces, rest)) : rest.length < text.length := by
  fun_induction Quoted.scanOnto seen text <;> simp_all <;> omega

theorem first?_length {text rest : List Char} {token : Token}
    (hfirst : first? text = some (token, rest)) : rest.length < text.length := by
  unfold first? at hfirst
  split at hfirst
  case h_10 =>
    obtain ⟨⟨pieces, left⟩, hscan, heq⟩ := Option.map_eq_some_iff.mp hfirst
    obtain ⟨-, rfl⟩ := Prod.mk.inj heq
    exact Nat.lt_succ_of_lt (scanOnto_length hscan)
  case h_11 =>
    obtain ⟨⟨number, left⟩, hscan, heq⟩ := Option.map_eq_some_iff.mp hfirst
    obtain ⟨-, rfl⟩ := Prod.mk.inj heq
    exact Nat.lt_succ_of_lt (scanUnsigned?_length hscan)
  case h_12 =>
    obtain ⟨⟨number, left⟩, hscan, heq⟩ := Option.map_eq_some_iff.mp hfirst
    obtain ⟨-, rfl⟩ := Prod.mk.inj heq
    exact scanUnsigned?_length hscan
  all_goals
    obtain ⟨-, rfl⟩ := Prod.mk.inj (Option.some.inj hfirst)
    simp only [List.length_cons]
    omega

/-- The tokens of a text behind the ones already seen in reverse order. -/
def listOnto (seen : List Token) (text : List Char) : List Token :=
  let start := text.dropWhile isSpace
  if start.isEmpty then seen.reverse
  else
    match _taken : first? start with
    | none => (.malformed :: seen).reverse
    | some (token, rest) => listOnto (token :: seen) rest
termination_by text.length
decreasing_by
  exact Nat.lt_of_lt_of_le (first?_length _taken) (dropWhile_length_le isSpace text)

/-- The tokens of a text. -/
def list (text : List Char) : List Token :=
  listOnto [] text

end Token

end FishMarket.Json
