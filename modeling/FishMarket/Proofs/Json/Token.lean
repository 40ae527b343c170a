import FishMarket.Json.Token
import FishMarket.Proofs.Json.Quoted
import FishMarket.Proofs.Text.Decimal

/-! # Tokens of written JSON

What is written without blanks is cut into the tokens that it was written from. A string ends with
its mark; an integer ends where something else than a part of a number follows.
-/

namespace FishMarket.Json

open Text

/-! ## Cutting -/

namespace Token

theorem listOnto_eq (seen : List Token) (text : List Char) :
    listOnto seen text = seen.reverse ++ list text := by
  induction hlength : text.length using Nat.strongRecOn generalizing seen text with
  | ind length ih =>
      subst hlength
      unfold list
      rw [listOnto.eq_def seen, listOnto.eq_def []]
      dsimp only
      split
      next => rw [List.reverse_nil, List.append_nil]
      next =>
        split
        next => simp
        next token rest hfirst =>
          have hshorter : rest.length < text.length :=
            Nat.lt_of_lt_of_le (first?_length hfirst) (dropWhile_length_le isSpace text)
          rw [ih _ hshorter _ _ rfl, ih _ hshorter [token] _ rfl]
          simp

/-- A text that begins with a token and no blank. -/
theorem list_of_first? {c : Char} {tail rest : List Char} {token : Token}
    (hspace : isSpace c = false) (hfirst : first? (c :: tail) = some (token, rest)) :
    list (c :: tail) = token :: list rest := by
  have hstart : (c :: tail).dropWhile isSpace = c :: tail := by simp [hspace]
  rw [list, listOnto]
  simp only [hstart, List.isEmpty_cons, Bool.false_eq_true, if_false]
  split
  next hnone =>
    rw [hstart, hfirst] at hnone
    cases hnone
  next token' rest' hsome =>
    rw [hstart, hfirst] at hsome
    obtain ⟨rfl, rfl⟩ := Prod.mk.inj (Option.some.inj hsome)
    exact listOnto_eq [token] rest

theorem list_openBrace (rest : List Char) : list ('\x7b' :: rest) = .openBrace :: list rest :=
  list_of_first? (by decide) rfl

theorem list_closeBrace (rest : List Char) : list ('\x7d' :: rest) = .closeBrace :: list rest :=
  list_of_first? (by decide) rfl

theorem list_colon (rest : List Char) : list (':' :: rest) = .colon :: list rest :=
  list_of_first? (by decide) rfl

theorem list_comma (rest : List Char) : list (',' :: rest) = .comma :: list rest :=
  list_of_first? (by decide) rfl

theorem list_null (rest : List Char) : list ("null".toList ++ rest) = .null :: list rest :=
  list_of_first? (by decide) rfl

theorem list_nil : list [] = [] := by
  rw [list, listOnto]
  rfl

theorem list_encode (text rest : List Char) :
    list (Quoted.encode text ++ rest) = .string (some text) :: list rest := by
  rw [Quoted.encode, List.cons_append, List.cons_append]
  refine list_of_first? (by decide) ?_
  rw [first?, List.append_assoc, List.singleton_append, Quoted.scan?_escape, Option.map_some]
  exact congrArg (fun content? => some (string content?, rest)) (Quoted.join?_pieces text)

end Token

/-! ## Integers -/

namespace Number

/-- An integer as a number. -/
def ofInt (value : Int) : Number where
  negative := value < 0
  whole := Text.ofNat value.natAbs
  fraction := []
  exponent? := none

theorem integer?_ofInt (value : Int) : (ofInt value).integer? = some value := by
  simp only [integer?, ofInt, List.isEmpty_nil, and_self, if_true, valueOfDigits_ofNat,
    decide_eq_true_eq]
  split
  next hneg =>
    rw [if_neg (by omega)]
    exact congrArg some (by omega)
  next => exact congrArg some (by omega)

/-- Whether a number cannot go on with what follows. -/
def Ends (rest : List Char) : Prop :=
  ∃ c tail, rest = c :: tail ∧ isDigit c = false ∧ c ≠ '.' ∧ c ≠ 'e' ∧ c ≠ 'E'

theorem ends_comma (rest : List Char) : Ends (',' :: rest) :=
  ⟨',', rest, rfl, by decide, by decide, by decide, by decide⟩

theorem ends_closeBrace (rest : List Char) : Ends ('\x7d' :: rest) :=
  ⟨'\x7d', rest, rfl, by decide, by decide, by decide, by decide⟩

theorem scanDigits?_ofNat (n : Nat) {rest : List Char} (hends : Ends rest) :
    scanDigits? (Text.ofNat n ++ rest) = some (Text.ofNat n, rest) := by
  obtain ⟨c, tail, rfl, hdigit, -⟩ := hends
  have htake : (Text.ofNat n ++ c :: tail).takeWhile isDigit = Text.ofNat n := by
    rw [List.takeWhile_append_of_pos isDigit_of_mem_ofNat]
    simp [hdigit]
  have hdrop : (Text.ofNat n ++ c :: tail).dropWhile isDigit = c :: tail := by
    rw [List.dropWhile_append_of_pos isDigit_of_mem_ofNat]
    simp [hdigit]
  simp [scanDigits?, htake, hdrop, ofNat_ne_nil]

theorem scanUnsigned?_ofNat (negative : Bool) (n : Nat) {rest : List Char} (hends : Ends rest) :
    scanUnsigned? negative (Text.ofNat n ++ rest) =
      some (⟨negative, Text.ofNat n, [], none⟩, rest) := by
  have hleading : ¬((Text.ofNat n).head? = some '0' ∧ 1 < (Text.ofNat n).length) := by
    rintro ⟨hzero, hlong⟩
    by_cases hn : n = 0
    · subst hn
      exact absurd hlong (by decide)
    · exact head?_ofNat_ne_zero hn hzero
  have hdigits := scanDigits?_ofNat n hends
  obtain ⟨c, tail, rfl, hdigit, hpoint, he, hE⟩ := hends
  have hfraction : scanFraction? (c :: tail) = some ([], c :: tail) := by
    unfold scanFraction?
    split
    next heq => exact absurd (List.cons.inj heq).1 hpoint
    next => rfl
  have hexponent : scanExponent? (c :: tail) = some (none, c :: tail) := by
    simp [scanExponent?, he, hE]
  simp only [scanUnsigned?, hdigits, hfraction, hexponent, Option.bind_eq_bind, Option.bind_some,
    if_neg hleading, Option.pure_def]

end Number

namespace Token

theorem first?_digit {c : Char} (hdigit : isDigit c = true) (tail : List Char) :
    first? (c :: tail) = (Number.scanUnsigned? false (c :: tail)).map
      fun (value, rest) => (.number value, rest) := by
  unfold first?
  split
  case h_12 => rfl
  all_goals
    next heq =>
      obtain ⟨rfl, -⟩ := List.cons.inj heq
      exact absurd hdigit (by decide)

theorem isSpace_of_isDigit {c : Char} (hdigit : isDigit c = true) : isSpace c = false := by
  cases hspace : isSpace c with
  | false => rfl
  | true =>
      simp only [isSpace, Bool.or_eq_true, decide_eq_true_eq] at hspace
      rcases hspace with ((rfl | rfl) | rfl) | rfl <;> exact absurd hdigit (by decide)

theorem list_ofInt (value : Int) {rest : List Char} (hends : Number.Ends rest) :
    list (Text.ofInt value ++ rest) = .number (.ofInt value) :: list rest := by
  cases value with
  | ofNat n =>
      have hscan := Number.scanUnsigned?_ofNat false n hends
      have hnumber : Number.ofInt (.ofNat n) = ⟨false, Text.ofNat n, [], none⟩ := rfl
      change list (Text.ofNat n ++ rest) = _
      rw [hnumber]
      obtain ⟨c, tail, hcons⟩ := List.exists_cons_of_ne_nil (ofNat_ne_nil n)
      have hdigit : isDigit c = true := isDigit_of_mem_ofNat c (hcons ▸ List.mem_cons_self)
      rw [hcons, List.cons_append] at hscan ⊢
      refine list_of_first? (isSpace_of_isDigit hdigit) ?_
      rw [first?_digit hdigit, hscan, Option.map_some]
  | negSucc n =>
      have hnumber : Number.ofInt (.negSucc n) = ⟨true, Text.ofNat (n + 1), [], none⟩ := by
        simp [Number.ofInt, Int.negSucc_lt_zero]
      refine list_of_first? (by decide) ?_
      change (Number.scanUnsigned? true (Text.ofNat (n + 1) ++ rest)).map _ = _
      rw [Number.scanUnsigned?_ofNat true (n + 1) hends, Option.map_some, hnumber]

end Token

end FishMarket.Json
