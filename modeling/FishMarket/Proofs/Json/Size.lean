import FishMarket.Proofs.Json.Token

/-! # The size of integers

An integer of 64 bits is never too large for double precision: its digits make up one significand
below 2^64, and rounding at most doubles it.
-/

namespace FishMarket.Json.Number

open Text

/-- Digits whose number stays below 2^64 are all gathered. -/
theorem gather_digits (digits : List Char) (value : Nat)
    (hsmall : digits.foldl (fun value c => 10 * value + (digitValue? c).getD 0) value <
      Nat.pow 2 64) :
    gather value digits =
      (digits.foldl (fun value c => 10 * value + (digitValue? c).getD 0) value, []) := by
  induction digits generalizing value with
  | nil => rfl
  | cons c rest ih =>
      have hnext : 10 * value + (digitValue? c).getD 0 < Nat.pow 2 64 :=
        Nat.lt_of_le_of_lt (le_foldl_digits rest _) hsmall
      rw [gather]
      exact (if_pos hnext).trans (ih _ hsmall)

theorem roundToDouble_le (n : Nat) : roundToDouble n ≤ 2 * n := by
  unfold roundToDouble
  split
  next => omega
  next hlarge =>
    extract_lets unit quotient twice roundUp
    have hpos : n ≠ 0 := by
      rintro rfl
      exact hlarge (by decide)
    have hunit : unit ≤ n :=
      Nat.le_trans (Nat.pow_le_pow_right (by decide) (Nat.sub_le _ _)) (Nat.log2_self_le hpos)
    have hquotient : quotient * unit ≤ n := Nat.div_mul_le_self n unit
    split
    next => rw [Nat.add_mul]; omega
    next => omega

/-- No integer of 64 bits is too large. -/
theorem beyondDouble_ofInt {value : Int} (hsmall : value.natAbs < Nat.pow 2 64) :
    (ofInt value).beyondDouble = false := by
  have hdigits : gather 0 (Text.ofNat value.natAbs) = (value.natAbs, []) := by
    have hvalue := valueOfDigits_ofNat value.natAbs
    have hgather := gather_digits (Text.ofNat value.natAbs) 0
      (by rw [← valueOfDigits, hvalue]; exact hsmall)
    rwa [← valueOfDigits, hvalue] at hgather
  have hproduct :
      roundToDouble value.natAbs * roundToDouble (Nat.pow 10 0) < doubleLimit := by
    have hunit : roundToDouble (Nat.pow 10 0) = 1 := by decide
    have hle := roundToDouble_le value.natAbs
    have hlimit : 2 * Nat.pow 2 64 ≤ doubleLimit := by decide +kernel
    rw [hunit]
    omega
  simp only [beyondDouble, ofInt, hdigits, gather, List.length_nil, Option.getD_none]
  split
  next => rfl
  next =>
    rw [if_neg (by decide)]
    exact decide_eq_false (Nat.not_le.mpr hproduct)

end FishMarket.Json.Number
