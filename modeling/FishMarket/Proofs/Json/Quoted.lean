import Mathlib.Tactic.SplitIfs
import FishMarket.Json.Quoted

/-! # Strings of JSON read back

A text between quotation marks is read back as it was, whatever characters it consists of: each
escape is read as the character that it was written for, and control characters are no halves of
surrogate pairs.
-/

namespace FishMarket.Json.Quoted

/-- Whether a character is written as a unit in hexadecimal digits. -/
def IsUnit (c : Char) : Prop :=
  c.toNat < 32 ∧ c ≠ '\n' ∧ c ≠ '\r' ∧ c ≠ '\t' ∧ c.toNat ≠ 8 ∧ c.toNat ≠ 12

instance (c : Char) : Decidable (IsUnit c) :=
  inferInstanceAs (Decidable (_ ∧ _))

/-- The piece that the written form of a character is read as. -/
def piece (c : Char) : Piece :=
  if IsUnit c then .unit c.toNat else .plain c

theorem unit?_hexDigit {n : Nat} (hn : n < 32) :
    unit? '0' '0' (hexDigit (n / 16)) (hexDigit (n % 16)) = some n := by
  have hall : ∀ n < 32, unit? '0' '0' (hexDigit (n / 16)) (hexDigit (n % 16)) = some n := by decide
  exact hall n hn

theorem scanOnto_plain {c : Char} (hmark : c ≠ '"') (hslash : c ≠ '\\') (hvisible : 32 ≤ c.toNat)
    (seen : List Piece) (rest : List Char) :
    scanOnto seen (c :: rest) = scanOnto (.plain c :: seen) rest := by
  rw [scanOnto]
  · refine if_neg ?_
    rintro (hsame | hlow)
    · exact hslash hsame
    · exact absurd hvisible (Nat.not_le.mpr hlow)
  · exact hmark
  · exact fun _ _ _ _ _ hsame => absurd hsame hslash
  · exact fun _ _ hsame => absurd hsame hslash

theorem scanOnto_unit {n : Nat} (hn : n < 32) (seen : List Piece) (rest : List Char) :
    scanOnto seen ('\\' :: 'u' :: '0' :: '0' :: hexDigit (n / 16) :: hexDigit (n % 16) :: rest) =
      scanOnto (.unit n :: seen) rest := by
  rw [scanOnto, unit?_hexDigit hn]

/-- The written form of a character is read as its piece. -/
theorem scanOnto_escape (c : Char) (seen : List Piece) (rest : List Char) :
    scanOnto seen (escape c ++ rest) = scanOnto (piece c :: seen) rest := by
  have hcode {code : Nat} (heq : c.toNat = code) : c = Char.ofNat code := by
    rw [← heq, Char.ofNat_toNat]
  by_cases hunit : IsUnit c
  · obtain ⟨hlt, hn, hr, ht, hb, hf⟩ := hunit
    have hmark : c ≠ '"' := by rintro rfl; exact absurd hlt (by decide)
    have hslash : c ≠ '\\' := by rintro rfl; exact absurd hlt (by decide)
    rw [piece, if_pos ⟨hlt, hn, hr, ht, hb, hf⟩]
    simp only [escape, hmark, hslash, hn, hr, ht, hb, hf, hlt, if_false, if_true]
    exact scanOnto_unit hlt seen rest
  · rw [piece, if_neg hunit]
    unfold escape
    split_ifs with hmark hslash hn hr ht hb hf hlt
    · rw [hmark]; rfl
    · rw [hslash]; rfl
    · rw [hn]; rfl
    · rw [hr]; rfl
    · rw [ht]; rfl
    · rw [hcode hb]; rfl
    · rw [hcode hf]; rfl
    · exact absurd ⟨hlt, hn, hr, ht, hb, hf⟩ hunit
    · exact scanOnto_plain hmark hslash (Nat.not_lt.mp hlt) seen rest

theorem scan?_escape (text rest : List Char) :
    scan? (text.flatMap escape ++ '"' :: rest) = some (text.map piece, rest) := by
  have hscan (seen : List Piece) : scanOnto seen (text.flatMap escape ++ '"' :: rest) =
      some (seen.reverse ++ text.map piece, rest) := by
    induction text generalizing seen with
    | nil => simp [scanOnto]
    | cons c text ih =>
        rw [List.flatMap_cons, List.append_assoc, scanOnto_escape, ih]
        simp
  exact hscan []

theorem joinOnto_unit {code : Nat} (hhigh : isHigh code = false) (hlow : isLow code = false)
    (seen : List Char) (rest : List Piece) :
    joinOnto seen (.unit code :: rest) = joinOnto (Char.ofNat code :: seen) rest := by
  cases rest with
  | nil => simp [joinOnto, hhigh, hlow]
  | cons next rest => cases next <;> simp [joinOnto, hhigh, hlow]

theorem joinOnto_piece (c : Char) (seen : List Char) (rest : List Piece) :
    joinOnto seen (piece c :: rest) = joinOnto (c :: seen) rest := by
  unfold piece
  split
  next hunit =>
    have hlt : c.toNat < 32 := hunit.1
    rw [joinOnto_unit (by simp [isHigh]; omega) (by simp [isLow]; omega), Char.ofNat_toNat]
  next => rw [joinOnto]

theorem join?_pieces (text : List Char) : join? (text.map piece) = some text := by
  have hjoin (seen : List Char) : joinOnto seen (text.map piece) = some (seen.reverse ++ text) := by
    induction text generalizing seen with
    | nil => simp [joinOnto]
    | cons c text ih => simp [joinOnto_piece, ih]
  exact hjoin []

end FishMarket.Json.Quoted
